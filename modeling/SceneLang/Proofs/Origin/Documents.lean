import SceneLang.Proofs.Depth.Documents
import SceneLang.Proofs.Diagnostic.Repairs
import SceneLang.Proofs.Origin.Directives
import SceneLang.Proofs.Parser.Reports
import SceneLang.Proofs.Token.Tiling

/-!
# What is read of documents

All that a document reports stems from the tokens of its text, and so do the templates of its
elements.  A fix is thus placed on a token, on the end of one or on its start, so that it can be
applied; what is inserted where something is missing always changes the text.
-/

namespace SceneLang
namespace Parser

variable {source : List Char} {tokens : List Token} {node : Node}

/-! ## The top level -/

theorem faithful_skipLayout : Faithful source tokens skipLayout :=
  faithful_skipUntil (faithful_currentKind.bind fun _ => .pure trivial)

theorem templated_attachLeading {leading : List PlacedDirective} (h : node.Templated tokens)
    (hleading : ∀ placed ∈ leading, placed.Grounded tokens) :
    (node.attachLeading (leading.map (·.directive))).Templated tokens := by
  rw [Node.templated_iff] at h
  rw [attachLeading_eq, Node.templated_iff]
  refine ⟨h.1, fun directive hmem => ?_, h.2.2⟩
  obtain hmem | hmem := List.mem_append.mp hmem
  · obtain ⟨placed, hplaced, rfl⟩ :=
      List.mem_map.mp ((mem_foldl_addLeading hmem).resolve_left List.not_mem_nil)
    exact (hleading placed hplaced).templated
  · exact h.2.1 directive hmem

theorem tells_attachAll {placed : List PlacedDirective} (h : node.Templated tokens)
    (hplaced : ∀ one ∈ placed, one.Grounded tokens) :
    Tells source tokens (attachAll node placed) (Node.Templated tokens) := by
  unfold attachAll
  induction placed generalizing node with
  | nil => exact .pure h
  | cons first rest ih =>
      rw [List.foldlM_cons]
      apply (tells_attach h (hplaced first List.mem_cons_self)).bind
      intro value hvalue
      exact ih hvalue fun one hmem => hplaced one (List.mem_cons_of_mem first hmem)

section

variable {held : Held} (hheld : FaithfulHeld source tokens held)
include hheld

theorem tells_leadingDirectives : Tells source tokens (leadingDirectives held) fun placed =>
    ∀ one ∈ placed, one.Grounded tokens := by
  have hloop : Tells source tokens (iterate [] (leadingTurn held)) fun placed =>
      ∀ one ∈ placed, one.Grounded tokens := by
    refine .iterate (List.forall_mem_nil _) fun placed hplaced => ?_
    apply (faithful_check .at).bind
    intro _
    refine .ite ((hheld.directive true).bind fun found hfound => ?_) (.pure hplaced)
    apply faithful_skipLayout.bind
    intro _
    refine .pure (List.forall_mem_append.mpr ⟨fun one hmem => ?_, hplaced⟩)
    exact hfound one (Option.mem_toList.mp hmem)
  exact hloop.bind fun placed hplaced =>
    .pure fun one hmem => hplaced one (List.mem_reverse.mp hmem)

/-- The elements read so far and the node of the directives that stand alone. -/
theorem tells_topTurn (found : List Node × Node)
    (hroots : ∀ node ∈ found.1, node.Templated tokens) (hloose : found.2.Templated tokens) :
    Tells source tokens (topTurn held found) (OfTurn fun found =>
      (∀ node ∈ found.1, node.Templated tokens) ∧ found.2.Templated tokens) := by
  obtain ⟨roots, loose⟩ := found
  apply faithful_skipLayout.bind
  intro _
  apply (tells_leadingDirectives hheld).bind
  intro leading hleading
  have hattach : Tells source tokens (attachAll loose leading) (Node.Templated tokens) :=
    tells_attachAll hloose hleading
  have hstray : Faithful source tokens strayToken := by
    apply (faithful_unexpected _).bind
    intro _
    apply (faithful_check .rightBrace).bind
    intro _
    exact .ite faithful_advance faithful_synchronize
  apply faithful_currentKind.bind
  intro kind
  split
  · exact hattach.bind fun _ hvalue => .pure ⟨hroots, hvalue⟩
  · exact hheld.element.bind fun _ hnode =>
      .pure ⟨List.forall_mem_cons.mpr ⟨templated_attachLeading hnode hleading, hroots⟩, hloose⟩
  · exact hattach.bind fun _ hvalue => hstray.bind fun _ => .pure ⟨hroots, hvalue⟩

end

theorem tells_document : Tells source tokens document (Node.Templated tokens) := by
  apply faithful_startPosition.bind
  intro start
  apply tells_get.bind
  intro state _
  have hlevel : Tells source tokens
      (topLevel (level (state.ahead.length + 1)) (.fragment [] default)) fun found =>
        (∀ node ∈ found.1, node.Templated tokens) ∧ found.2.Templated tokens :=
    .iterate ⟨List.forall_mem_nil _, Node.templated_ofKind tokens .fragment default rfl⟩
      fun found hfound => tells_topTurn (faithfulHeld_level _) found hfound.1 hfound.2
  apply hlevel.bind
  rintro ⟨roots, loose⟩ ⟨hroots, hloose⟩
  dsimp only
  split
  · exact tells_close hloose start
  · split
    next hone _ =>
      cases hone
      exact .pure (hroots _ List.mem_cons_self)
    · rw [Node.templated_iff] at hloose
      exact .pure (Node.templated_iff.mpr ⟨hloose.1, hloose.2.1, fun child hmem =>
        hroots child (List.mem_reverse.mp hmem)⟩)

theorem honest_start (options : ParseOptions) :
    Honest source tokens (.start options tokens) where
  ahead := List.suffix_refl _
  previous := fun _ hmem => nomatch hmem
  errors := fun _ hmem => nomatch hmem
  warnings := fun _ hmem => nomatch hmem

end Parser

/-! ## Places of fixes -/

variable {source : List Char} {tokens : List Token} {token : Token} {fix : QuickFix}
  {d : Diagnostic}

/-- The codes of reports of what is missing. -/
def Code.missing : List Code :=
  [.missingBrace, .missingColon, .missingQuote]

namespace Document

/-- The tree is read and the reports are made from the tokens of the text. -/
theorem drawn (options : ParseOptions) (source : List Char) :
    (parse options source).root.Templated (tokenize source) ∧
      ∀ d ∈ (parse options source).diagnostics, Parser.Stems source (tokenize source) d := by
  obtain ⟨root, state, hrun, -, hparse⟩ := exists_run options source
  rw [Parser.run, Parser.withEnd_tokenize] at hrun
  obtain ⟨hhonest, htemplated⟩ :=
    Parser.tells_document options _ (Parser.honest_start options) root state hrun
  rw [hparse, diagnostics, List.forall_mem_append]
  exact ⟨htemplated, hhonest.errors, hhonest.warnings⟩

/-- Each template in the tree of a text is named in it behind `using`. -/
theorem templated (options : ParseOptions) (source : List Char) :
    (Document.parse options source).root.Templated (tokenize source) :=
  (drawn options source).1

theorem stems (options : ParseOptions) (source : List Char) :
    ∀ d ∈ (Document.parse options source).diagnostics, Parser.Stems source (tokenize source) d :=
  (drawn options source).2

end Document

end SceneLang
