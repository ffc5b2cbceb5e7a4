import SceneLang.Proofs.Shelter.Locality
import SceneLang.Proofs.Token.Tiling

/-!
# Texts behind line breaks

Line breaks in front of a text do nothing but move it down.  The scanner starts the same line
anew behind each of them, so the tokens are those of the text, further down, and from there on
the two parses follow each other up to the end.
-/

namespace SceneLang

open Movable (move)

/-- So many line breaks stand before the text. -/
def Shift.below (breaks : Nat) : Shift := ⟨breaks, breaks, 0⟩

/-! ## Tokens -/

namespace Scanner

/-- A line break at the start of a line that is blank leads to the start of the next one. -/
theorem tokens_of_break {s : Scanner} {rest : List Char} (howed : s.owed = [])
    (hstart : s.atLineStart = true) (hgroups : s.groups = 0) (hline : s.lineHasToken = false)
    (hrest : s.cursor.rest = '\n' :: rest) :
    s.tokens = { s with cursor := s.cursor.next }.tokens := by
  obtain ⟨cursor, levels, owed, atLineStart, lineHasToken, groups, afterValue⟩ := s
  dsimp only at howed hstart hgroups hline hrest
  subst howed hstart hgroups hline
  have hskip : step ⟨cursor, levels, [], true, false, 0, afterValue⟩ =
      .skip ⟨cursor, levels, [], false, false, 0, afterValue⟩ := by
    rw [step_of_lineStart rfl rfl rfl, startLine, hrest]
    rfl
  have hbreak : step ⟨cursor, levels, [], false, false, 0, afterValue⟩ =
      .skip ⟨cursor.next, levels, [], true, false, 0, afterValue⟩ :=
    step_of_break rfl rfl hrest
  rw [tokens_of_skip hskip, tokens_of_skip hbreak]

end Scanner

theorem tokenize_break (source : List Char) :
    tokenize ('\n' :: source) = move (.below 1) (tokenize source) := by
  rw [tokenize, tokenize, ← Scanner.tokens_move, Scanner.tokens_of_break rfl rfl rfl rfl rfl]
  rfl

theorem tokenize_breaks (breaks : Nat) (source : List Char) :
    tokenize (List.replicate breaks '\n' ++ source) = move (.below breaks) (tokenize source) := by
  induction breaks with
  | zero => exact (List.map_id _).symm
  | succ breaks ih =>
      rw [List.replicate_succ, List.cons_append, tokenize_break, ih]
      exact List.map_map

/-! ## Parses -/

instance : Movable Log where
  move shift log :=
    { log with errors := move shift log.errors, warnings := move shift log.warnings }

namespace Log

variable (shift : Shift) (log : Log)

theorem push_move (d : Diagnostic) :
    (move shift log).push (move shift d) = move shift (log.push d) := by
  have herrors : (move shift log).errors = log.errors.map (move shift) := rfl
  have hwarnings : (move shift log).warnings = log.warnings.map (move shift) := rfl
  have hlimits : (move shift log).limits = log.limits := rfl
  have herror : (move shift d).isError = d.isError := rfl
  unfold push
  rw [herror, herrors, hwarnings, hlimits, List.length_map, List.length_map]
  split <;> split
  · rw [← List.map_singleton, ← List.map_append]
    rfl
  · rfl
  · rw [← List.map_singleton, ← List.map_append]
    rfl
  · rfl

theorem hasErrors_move : (move shift log).hasErrors = log.hasErrors := by
  have herrors : (move shift log).errors.length = log.errors.length := List.length_map _
  rw [hasErrors, hasErrors, errorCount, errorCount, herrors]
  rfl

end Log

namespace Parser

/-- Behind line breaks a parse notes down the same, further down. -/
def Bond.below (breaks : Nat) : Bond where
  shift := .below breaks
  alike a b := a = { b with log := move (.below breaks) b.log }
  report := by
    rintro _ b d rfl
    rw [Log.push_move]
  use := by
    rintro _ b feature rfl
    rfl
  interpolation := by
    rintro _ b number text rfl
    rfl
  imports := by
    rintro _ b decl rfl
    rfl

variable {bond : Bond} {context other : Context} {state : State} {tokens : List Token}

/-- The tree that elements, in reverse, and a node with the directives that stand alone make
up. -/
def gather (start : Position) (roots : List Node) (loose : Node) : Parser Node :=
  match roots with
  | [] => close loose start
  | last :: _ =>
      match roots, loose.directives.isEmpty && loose.traits.isEmpty with
      | [root], true => pure root
      | _, _ =>
          pure { loose with
            children := roots.reverse
            loc := (roots.getLastD last).loc.merge last.loc }

theorem returns_document_iff {post : Node → State → Prop} (hended : Ended state.ahead) :
    Returns document context state post ↔
      Returns (topLevel (level (state.ahead.length + 1)) (.fragment [] default)) context state
        fun found next =>
          Returns (gather state.token.position found.1 found.2) context next post := by
  rw [document, returns_bind, startPosition, returns_bind, returns_current hended, returns_pure,
    returns_bind, returns_get, returns_bind]
  constructor
  · intro h
    refine h.mono ?_
    rintro ⟨roots, loose⟩ next hnext
    exact hnext
  · intro h
    refine h.mono ?_
    rintro ⟨roots, loose⟩ next hnext
    exact hnext

theorem move_min {shift : Shift} (p q : Position) :
    move shift (min p q) = min (move shift p) (move shift q) := by
  have hle (p q : Position) : move shift p ≤ move shift q ↔ p ≤ q := by
    simp only [Position.le_def, move]
    omega
  change move shift (if p ≤ q then p else q) =
    if move shift p ≤ move shift q then move shift p else move shift q
  simp only [hle]
  split <;> rfl

theorem move_mergeLocations {shift : Shift} (a b : Location) :
    move shift (a.merge b) = (move shift a).merge (move shift b) := by
  change (⟨move shift (min a.start b.start), move shift (max a.stop b.stop)⟩ : Location) = _
  rw [move_min, move_max]
  rfl

/-- A fragment with all of its elements is the same further down. -/
theorem move_gathered {shift : Shift} {loose loose' : Node} (h : Draft shift loose loose')
    (roots : List Node) (loc : Location) :
    { loose with children := (move shift roots).reverse, loc := move shift loc } =
      move shift { loose' with children := roots.reverse, loc := loc } := by
  obtain ⟨_, rfl⟩ := h
  rw [Node.move_eq, Node.move_eq shift { loose' with children := _, loc := _ }, move_reverse]

theorem follows_gather (start : Position) (roots : List Node) {loose loose' : Node}
    (hloose : Draft bond.shift loose loose') :
    Follows bond .within .within (gather (move bond.shift start) (move bond.shift roots) loose)
      (gather start roots loose') := by
  have hdirectives : loose.directives.isEmpty = loose'.directives.isEmpty := by
    rw [hloose.directives_eq]
    exact List.isEmpty_map
  have htraits : loose.traits.isEmpty = loose'.traits.isEmpty := by
    rw [hloose.traits_eq]
    exact List.isEmpty_map
  cases roots with
  | nil => exact follows_close hloose start
  | cons last rest =>
      have hlast : move bond.shift (last :: rest) = move bond.shift last :: move bond.shift rest :=
        rfl
      have hfirst : (move bond.shift (last :: rest)).getLastD (move bond.shift last) =
          move bond.shift ((last :: rest).getLastD last) := by
        rw [List.getLastD_eq_getLast?, List.getLastD_eq_getLast?]
        exact (congrArg (Option.getD · _) List.getLast?_map).trans (Option.getD_map _ _ _)
      have hloc (node : Node) : (move bond.shift node).loc = move bond.shift node.loc := by
        rw [Node.move_eq]
      have hmany : Follows bond .within .within
          (pure { loose with
            children := (move bond.shift (last :: rest)).reverse
            loc := ((move bond.shift (last :: rest)).getLastD (move bond.shift last)).loc.merge
              (move bond.shift last).loc })
          (pure { loose' with
            children := (last :: rest).reverse
            loc := ((last :: rest).getLastD last).loc.merge last.loc }) := by
        rw [hfirst, hloc, hloc, ← move_mergeLocations]
        exact .pure (move_gathered hloose _ _)
      unfold Parser.gather
      rw [hlast] at hmany ⊢
      rw [hdirectives, htraits]
      cases rest with
      | nil =>
          cases loose'.directives.isEmpty && loose'.traits.isEmpty with
          | true => exact .pure rfl
          | false => exact hmany
      | cons second rest => exact hmany

theorem returns_gather (start : Position) (roots : List Node) (loose : Node) (context : Context)
    (state : State) : Returns (gather start roots loose) context state fun _ _ => True := by
  cases roots with
  | nil =>
      rw [gather, close, returns_bind, locationFrom, returns_bind, endPosition, returns_bind,
        returns_get]
      split
      · rw [returns_pure, returns_pure, returns_pure]
        trivial
      · rw [returns_bind, returns_read, returns_pure, returns_pure, returns_pure]
        trivial
  | cons last rest =>
      unfold gather
      dsimp only
      split <;> exact returns_pure.mpr trivial

theorem attaching_draft : Attaching bond (Draft bond.shift) :=
  fun _ _ _ placed h => follows_attach h placed

/-- A position of a text is not before its start, here or further down. -/
theorem max_start_move {shift : Shift} {p : Position} (h : Position.start ≤ p) :
    max .start (move shift p) = move shift (max .start p) := by
  have hmoved : Position.start ≤ move shift p := by
    simp only [Position.le_def, Position.start, move] at h ⊢
    omega
  have hmax (q : Position) (hq : Position.start ≤ q) : max .start q = q := if_pos hq
  rw [hmax _ hmoved, hmax _ h]

/-- A text is read to the same tree further down, and the same is noted down, unless there are
interpolations before it. -/
theorem returns_document_moved (options options' : ParseOptions) (hended : Ended tokens)
    (hplaces : ∀ token ∈ tokens, Position.start ≤ token.position) (hids : bond.shift.ids = 0)
    (hoptions : context.options.ReadsAs other.options)
    (hsource : ∃ front, context.source = front ++ other.source ∧
      Text.byteLength front = bond.shift.bytes)
    (hnotes : bond.alike (State.start options' []).notes (State.start options []).notes) :
    Returns document other (.start options tokens) fun root next =>
      Returns document context (.start options' (move bond.shift tokens)) fun root' next' =>
        root' = move bond.shift root ∧ bond.alike next'.notes next.notes := by
  have hmoved := hended.move bond.shift
  obtain ⟨layout, last, rest, rfl, hlayout, hlast⟩ := hended.exists_plain
  have hahead : move bond.shift (layout ++ last :: rest) =
      move bond.shift layout ++ move bond.shift last :: move bond.shift rest :=
    List.map_append
  have hfront : ∀ token ∈ move bond.shift layout, token.kind.isLayout = true := by
    intro token hmem
    obtain ⟨first, hfirst, rfl⟩ := List.mem_map.mp hmem
    exact hlayout first hfirst
  have hstart : ∃ first others, layout ++ last :: rest = first :: others ∧
      (State.start options (layout ++ last :: rest)).token = first ∧
      (State.start options' (move bond.shift (layout ++ last :: rest))).token =
        move bond.shift first := by
    obtain ⟨first, others, hfirst⟩ := List.exists_cons_of_ne_nil
      (List.append_ne_nil_of_right_ne_nil layout (List.cons_ne_nil last rest))
    rw [hfirst]
    exact ⟨first, others, rfl, State.token_of_visible (visible_zero _),
      State.token_of_visible (visible_zero _)⟩
  obtain ⟨first, others, hfirst, htoken, htoken'⟩ := hstart
  by_cases heof : last.kind = .eof
  · -- Nothing has been read, so the end of the tree is not that of a token.
    apply returns_document_of_layout hended rfl rfl rfl hlayout heof
    have heof' : (move bond.shift last).kind = .eof := heof
    apply returns_document_of_layout hmoved hahead rfl rfl hfront heof'
    rw [htoken, htoken', position_move,
      max_start_move (hplaces first (hfirst ▸ List.mem_cons_self))]
    exact ⟨rfl, hnotes⟩
  · have hback : Ended (last :: rest) := (ended_append (List.cons_ne_nil _ _)).mp hended
    have hplain : Within ((layout ++ last :: rest).length + 1) 0
        { State.start options (layout ++ last :: rest) with ahead := last :: rest } := by
      refine ⟨hback, ?_, rfl, Nat.zero_le _⟩
      rw [List.length_append]
      exact Nat.le_trans (Nat.le_add_left _ _) (Nat.le_succ _)
    have halike : Alike bond .opening context other
        { State.start options' (move bond.shift (layout ++ last :: rest)) with
          ahead := move bond.shift (last :: rest) }
        { State.start options (layout ++ last :: rest) with ahead := last :: rest } :=
      { options := hoptions
        source := hsource
        ahead := rfl
        previous := .inr ⟨rfl, last, rest, visible_cons hlast, hlast, heof⟩
        braceDepth := rfl
        nesting := rfl
        valueFailed := rfl
        number := hids.symm.trans (Nat.zero_add _).symm
        numbered := numbered_nil
        numberedBack := numbered_nil
        notes := hnotes }
    have hloose : Draft bond.shift (.fragment [] default) (.fragment [] default) :=
      ⟨default, rfl⟩
    obtain ⟨found, next, hrun, -, hend⟩ : Returns _ other _ _ :=
      returns_topLevel (forward_level ((layout ++ last :: rest).length + 1)) (.fragment [] default)
        hplain
    have htop : Returns (topLevel (level ((layout ++ last :: rest).length + 1))
        (.fragment [] default)) other
        { State.start options (layout ++ last :: rest) with ahead := last :: rest }
        fun found' next' => found = found' ∧ next = next' :=
      ⟨found, next, hrun, rfl, rfl⟩
    have hlength : (move bond.shift (layout ++ last :: rest)).length =
        (layout ++ last :: rest).length := List.length_map _
    have hrooted : Rooted bond.shift [] (Draft bond.shift)
        ([], .fragment [] default) ([], .fragment [] default) := ⟨rfl, hloose⟩
    have hfollows := follows_topLevel (follows_level 0 ((layout ++ last :: rest).length + 1))
      attaching_draft hrooted halike htop
    obtain ⟨root, final, hroot, -⟩ : Returns _ other _ _ :=
      returns_gather first.position found.1 found.2 other next
    have hgather : Returns (gather first.position found.1 found.2) other next
        fun root' final' => root = root' ∧ final = final' := ⟨root, final, hroot, rfl, rfl⟩
    rw [returns_document_iff hended, htoken]
    refine returns_topLevel_of_layout hended rfl rfl hlayout hlast (htop.mono ?_)
    rintro _ _ ⟨rfl, rfl⟩
    refine hgather.mono ?_
    rintro _ _ ⟨rfl, rfl⟩
    rw [returns_document_iff hmoved, htoken']
    refine returns_topLevel_of_layout hmoved hahead rfl hfront hlast ?_
    rw [show (State.start options' (move bond.shift (layout ++ last :: rest))).ahead.length =
      (layout ++ last :: rest).length from hlength]
    refine hfollows.mono ?_
    rintro ⟨roots, loose⟩ next' ⟨_, _, ⟨rfl, rfl⟩, ⟨hroots, hloose⟩, halike'⟩
    have hwithin : Alike bond .within context other next' next := by
      refine halike'.within_of_end fun token rest hvisible => ?_
      rw [← State.token_of_visible hvisible]
      exact hend
    rw [List.append_nil] at hroots
    dsimp only at hroots ⊢
    rw [hroots]
    refine (follows_gather first.position found.1 hloose hwithin hgather).mono ?_
    rintro _ _ ⟨_, _, ⟨rfl, rfl⟩, rfl, halike''⟩
    exact ⟨rfl, halike''.notes⟩

end Parser

/-! ## Documents -/

theorem start_le_of_tokenize (source : List Char) :
    ∀ token ∈ tokenize source, Position.start ≤ token.position := by
  intro token hmem
  have htiles : Tiles [] source (tokenize source) := Scanner.tiles_tokens rfl
  obtain ⟨gap, inside, after, -, hcovers⟩ := htiles.exists_covers token hmem
  rw [hcovers.position, Position.le_def, Position.behind, Position.start]
  dsimp only
  omega

mutual

/-- In 32 bits a tree behind line breaks is the tree shifted by as many lines. -/
theorem Node.down_move (breaks : Nat) (node : Node) :
    (node.moved (.below breaks)).down 0 = (node.moved (.below 0)).down breaks := by
  obtain ⟨kind, name, id, children, properties, spreads, directives, traits, exported, loc⟩ := node
  rw [Node.moved, Node.moved, Node.down, Node.down, Node.downAll_move breaks children,
    Directive.downAll_move breaks directives]
  rfl

theorem Node.downAll_move (breaks : Nat) (nodes : List Node) :
    Node.downAll 0 (Node.movedAll (.below breaks) nodes) =
      Node.downAll breaks (Node.movedAll (.below 0) nodes) := by
  match nodes with
  | [] => rfl
  | node :: rest =>
      rw [Node.movedAll, Node.movedAll, Node.downAll, Node.downAll, Node.down_move breaks node,
        Node.downAll_move breaks rest]

theorem Directive.down_move (breaks : Nat) (directive : Directive) :
    (directive.moved (.below breaks)).down 0 = (directive.moved (.below 0)).down breaks := by
  match directive with
  | .loop form item iterable body =>
      exact congrArg (Directive.loop form item iterable) (Node.downAll_move breaks body)
  | .whileLoop condition body =>
      exact congrArg (Directive.whileLoop condition) (Node.downAll_move breaks body)
  | .conditional condition body none =>
      exact congrArg (Directive.conditional condition · none) (Node.downAll_move breaks body)
  | .conditional condition body (some elseBody) =>
      exact congrArg₂ (fun body elseBody => Directive.conditional condition body (some elseBody))
        (Node.downAll_move breaks body) (Node.downAll_move breaks elseBody)
  | .trait _ _ | .generic _ _ | .lifecycle _ _ _ | .state _ | .bindings _ | .imports _
  | .setting _ _ | .topic _ _ _ => rfl

theorem Directive.downAll_move (breaks : Nat) (directives : List Directive) :
    Directive.downAll 0 (Directive.movedAll (.below breaks) directives) =
      Directive.downAll breaks (Directive.movedAll (.below 0) directives) := by
  match directives with
  | [] => rfl
  | directive :: rest =>
      rw [Directive.movedAll, Directive.movedAll, Directive.downAll, Directive.downAll,
        Directive.down_move breaks directive, Directive.downAll_move breaks rest]

end

theorem Diagnostic.relocate_move (breaks : Nat) (d : Diagnostic) :
    (move (.below breaks) d).relocate 0 0 = d.relocate breaks breaks := by
  have hfixes : (move (.below breaks) d.fixes).map (QuickFix.relocate 0 0) =
      d.fixes.map (QuickFix.relocate breaks breaks) := List.map_map
  have hlabels : (move (.below breaks) d.labels).map
      (fun label => { label with span := label.span.shift 0 }) =
      d.labels.map fun label => { label with span := label.span.shift breaks } := List.map_map
  exact congrArg₂ (fun fixes labels => { d.relocate breaks breaks with
    fixes := fixes, labels := labels }) hfixes hlabels

namespace Document

/-- The document of the text behind so many line breaks. -/
def below (breaks : Nat) (document : Document) : Document :=
  { document with
    root := move (.below breaks) document.root
    errors := move (.below breaks) document.errors
    warnings := move (.below breaks) document.warnings }

theorem parse_below (options : ParseOptions) (breaks : Nat) (source : List Char) :
    parse options (List.replicate breaks '\n' ++ source) = (parse options source).below breaks := by
  have hlength : Text.byteLength (List.replicate breaks '\n') = breaks := by
    induction breaks with
    | zero => rfl
    | succ breaks ih =>
        rw [List.replicate_succ, Text.byteLength_cons, ih]
        exact Nat.add_comm 1 breaks
  have hmoved := @Parser.returns_document_moved (.below breaks)
    ⟨List.replicate breaks '\n' ++ source, options⟩ ⟨source, options⟩ (tokenize source) options
    options (ended_tokenize source) (start_le_of_tokenize source) rfl (.of_eq rfl)
    ⟨_, rfl, hlength⟩ rfl
  obtain ⟨root, next, hrun, root', next', hrun', rfl, hnotes⟩ := hmoved
  have hparse : Parser.run options source (tokenize source) = .ok (root, next) := by
    rw [Parser.run, Parser.withEnd_tokenize]
    exact hrun
  have hparse' : Parser.run options (List.replicate breaks '\n' ++ source)
      (tokenize (List.replicate breaks '\n' ++ source)) =
        .ok (move (.below breaks) root, next') := by
    rw [Parser.run, Parser.withEnd_tokenize, tokenize_breaks]
    exact hrun'
  have hlog : next'.log = move (.below breaks) next.log := congrArg Parser.Notes.log hnotes
  have hexpressions : next'.expressions = next.expressions :=
    congrArg Parser.Notes.expressions hnotes
  have himports : next'.imports = next.imports := congrArg Parser.Notes.imports hnotes
  have hfeatures : next'.features = next.features := congrArg Parser.Notes.features hnotes
  rw [parse, parse, ofTokens, ofTokens, hparse, hparse']
  dsimp only
  rw [ofState, ofState, hlog, hexpressions, himports, hfeatures, Log.hasErrors_move]
  rfl

/-- The document with its tree shifted down and its diagnostics relocated. -/
def down (lines : Nat) (document : Document) : Document :=
  { document with
    root := document.root.down lines
    errors := document.errors.map (·.relocate lines lines)
    warnings := document.warnings.map (·.relocate lines lines) }

/-- The document with its places as 32 bits hold them. -/
def stored (document : Document) : Document :=
  document.down 0

/-- Line breaks in front of a text shift its tree and its diagnostics down, and change nothing
else. -/
theorem stored_parse_breaks (options : ParseOptions) (breaks : Nat) (source : List Char) :
    (parse options (List.replicate breaks '\n' ++ source)).stored =
      (parse options source).down breaks := by
  -- A parse is its own further down by nothing, so its interpolations are numbered in order.
  have hroot : (parse options source).root = move (.below 0) (parse options source).root :=
    congrArg root (parse_below options 0 source)
  have hdown : (move (.below breaks) (parse options source).root).down 0 =
      (parse options source).root.down breaks := by
    conv_rhs => rw [hroot]
    exact Node.down_move breaks _
  have hlist (ds : List Diagnostic) :
      (move (.below breaks) ds).map (·.relocate 0 0) = ds.map (·.relocate breaks breaks) := by
    refine List.map_map.trans (List.map_congr_left fun d _ => ?_)
    exact Diagnostic.relocate_move breaks d
  rw [parse_below, stored, down, down, below]
  dsimp only
  rw [hdown, hlist, hlist]

end Document

end SceneLang
