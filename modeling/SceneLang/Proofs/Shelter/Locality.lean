import SceneLang.Proofs.Parser.Reports
import SceneLang.Proofs.Shelter.Documents
import SceneLang.Proofs.Token.Block

/-!
# Recovery is local

Whatever stands within the braces of an element, the elements behind it are read as they are
read alone, further down.  One thing goes on beyond the closing brace: the parser remembers that
a value could not be read until it reads the next one, so the elements behind are read as after
such a value.
-/

namespace SceneLang
namespace Parser

open Movable (move)

variable {context other : Context} {state : State} {layout rest : List Token} {last : Token}

/-! ## Behind layout -/

/-- The elements behind layout are those of the text with it. -/
theorem returns_topLevel_of_layout {held : Held} {found : List Node × Node}
    {post : List Node × Node → State → Prop} (hended : Ended state.ahead)
    (hahead : state.ahead = layout ++ last :: rest) (hdepth : state.braceDepth = 0)
    (hlayout : ∀ token ∈ layout, token.kind.isLayout = true) (hlast : last.kind.isLayout = false)
    (h : Returns (iterate found (topTurn held)) context { state with ahead := last :: rest } post) :
    Returns (iterate found (topTurn held)) context state post := by
  obtain ⟨roots, loose⟩ := found
  have hshorter : (last :: rest).length ≤ state.ahead.length := by
    rw [hahead, List.length_append]
    exact Nat.le_add_left _ _
  have hvisible : { state with ahead := last :: rest }.visibleFrom 0 = last :: rest :=
    visible_cons hlast
  rw [returns_iterate] at h ⊢
  rw [topTurn, returns_bind] at h ⊢
  rw [returns_skipLayout_of_plain hvisible hlast] at h
  apply returns_skipLayout_of_layout hended hahead hdepth hlayout hlast
  refine h.mono fun result next hnext => ?_
  cases result with
  | done value => exact hnext
  | yield value => exact ⟨Nat.lt_of_lt_of_le hnext.1 hshorter, hnext.2⟩

/-! ## Behind a block -/

/-- The parses note down the same behind a block, whatever they noted down before. -/
def Bond.behind (shift : Shift) : Bond where
  shift := shift
  alike := fun _ _ => True
  report := fun _ _ => trivial
  use := fun _ _ => trivial
  interpolation := fun _ _ _ => trivial
  imports := fun _ _ => trivial

theorem exists_reportIf (c : Prop) [Decidable c] (d : Diagnostic) {α : Type} (value : α)
    (state : State) :
    ∃ log, ∀ context (post : α → State → Prop),
      Returns (if c then do
          report d
          pure value
        else pure value) context state post ↔ post value { state with log := log } := by
  by_cases hc : c
  · refine ⟨state.log.push d, fun context post => ?_⟩
    rw [if_pos hc, returns_bind, report, returns_modify, returns_pure]
  · refine ⟨state.log, fun context post => ?_⟩
    rw [if_neg hc, returns_pure]

/-- Attaching a directive writes at most to the log. -/
theorem exists_attach (node : Node) (placed : PlacedDirective) (state : State) :
    ∃ log, ∀ context (post : Node → State → Prop),
      Returns (attach node placed) context state post ↔
        post (node.attach placed.directive) { state with log := log } := by
  unfold attach
  split
  · exact exists_reportIf _ _ _ state
  · exact exists_reportIf _ _ _ state
  · exact ⟨state.log, fun _ _ => returns_pure⟩

theorem attaching_behind (shift : Shift) : Attaching (.behind shift) fun _ _ => True := by
  intro i loose loose' placed _ context other state back halike post hpost
  obtain ⟨log, hattach⟩ := exists_attach loose (move shift placed) state
  obtain ⟨log', hattach'⟩ := exists_attach loose' placed back
  rw [hattach'] at hpost
  exact (hattach _ _).mpr ⟨_, _, hpost, trivial, { halike with notes := trivial }⟩

/-- The state in which a text is read behind others; `failed` says whether the last value in
front of it could not be read. -/
def State.startBehind (options : ParseOptions) (failed : Bool) (tokens : List Token) : State :=
  { State.start options tokens with valueFailed := failed }

/-- Behind the end of a block. -/
structure Behind (shift : Shift) (tokens : List Token) (context other : Context) (state : State) :
    Prop where
  options : context.options = other.options
  source : ∃ front, context.source = front ++ other.source ∧ Text.byteLength front = shift.bytes
  ahead : ∃ line, state.ahead = line :: move shift tokens ∧ line.kind = .newline
  depth : state.braceDepth = 0
  nesting : state.nesting = 0
  number : state.expressions.length = shift.ids
  numbered : Numbered state.expressions

variable {shift : Shift} {tokens : List Token}

theorem numbered_nil : Numbered [] :=
  fun _ _ => rfl

theorem Ended.move (h : Ended tokens) (shift : Shift) : Ended (Movable.move shift tokens) := by
  rw [Ended, Option.map_eq_some_iff] at h
  obtain ⟨last, hlast, hkind⟩ := h
  have hmoved : (Movable.move shift tokens).getLast? = some (Movable.move shift last) := by
    rw [show Movable.move shift tokens = tokens.map (Movable.move shift) from rfl,
      List.getLast?_map, hlast]
    rfl
  rw [Ended, hmoved]
  exact congrArg some hkind

theorem Ended.behind_line (h : Ended tokens) (line : Token) (shift : Shift) :
    Ended (line :: Movable.move shift tokens) :=
  (@ended_append [line] _ (h.move shift).ne_nil).mpr (h.move shift)

/-- In front of the end of a text there may be layout. -/
theorem Ended.exists_plain (h : Ended tokens) :
    ∃ layout last rest, tokens = layout ++ last :: rest ∧
      (∀ token ∈ layout, token.kind.isLayout = true) ∧ last.kind.isLayout = false := by
  have hsplit := List.takeWhile_append_dropWhile (p := (·.kind.isLayout)) (l := tokens)
  have hlayout (token : Token) (hmem : token ∈ tokens.takeWhile (·.kind.isLayout)) :
      token.kind.isLayout = true :=
    List.mem_takeWhile_imp (p := fun token : Token => token.kind.isLayout) hmem
  have hhead := List.head?_dropWhile_not (fun token : Token => token.kind.isLayout) tokens
  cases hdrop : tokens.dropWhile (·.kind.isLayout) with
  | cons last rest =>
      rw [hdrop] at hsplit hhead
      exact ⟨_, last, rest, hsplit.symm, hlayout, by simpa using hhead⟩
  | nil =>
      rw [hdrop, List.append_nil] at hsplit
      rw [Ended, Option.map_eq_some_iff] at h
      obtain ⟨last, hlast, hkind⟩ := h
      have hmem := hlayout last (hsplit.symm ▸ List.mem_of_getLast? hlast)
      rw [hkind] at hmem
      contradiction

/-- Once the layout behind a block has been passed over, the parse is alike to one of the text
behind it alone. -/
theorem Behind.alike (h : Behind shift tokens context other state) (rest : List Token)
    (hlast : last.kind.isLayout = false)
    (heof : last.kind ≠ .eof) :
    Alike (.behind shift) .opening context other
      { state with ahead := move shift (last :: rest) }
      { State.startBehind other.options state.valueFailed tokens with ahead := last :: rest } where
  options := .of_eq h.options
  source := h.source
  ahead := rfl
  previous := .inr ⟨rfl, last, rest, visible_cons hlast, hlast, heof⟩
  braceDepth := h.depth
  nesting := h.nesting
  valueFailed := rfl
  number := by
    rw [show state.expressions.length = shift.ids from h.number]
    exact (Nat.zero_add _).symm
  numbered := h.numbered
  numberedBack := numbered_nil
  notes := trivial

/-- The elements behind a block are read as those of the text behind it alone, further down. -/
theorem Behind.returns_topLevel (h : Behind shift tokens context other state)
    (hended : Ended tokens) {levels : Nat} (hlevels : tokens.length ≤ levels) (more : Nat)
    (found : List Node × Node) (loose : Node) :
    Returns (topLevel (level levels) loose) other
      (State.startBehind other.options state.valueFailed tokens) fun value _ =>
        Returns (iterate found (topTurn (level (levels + more)))) context state fun value' _ =>
          value'.1 = move shift value.1 ++ found.1 := by
  obtain ⟨roots, loose'⟩ := found
  obtain ⟨line, hahead, hline⟩ := h.ahead
  obtain ⟨layout, last, rest, rfl, hlayout, hlast⟩ := hended.exists_plain
  have hahead : state.ahead = (line :: move shift layout) ++ move shift last :: move shift rest := by
    rw [hahead]
    exact congrArg (line :: ·) List.map_append
  have hfront : ∀ token ∈ line :: move shift layout, token.kind.isLayout = true := by
    intro token hmem
    obtain rfl | hmem := List.mem_cons.mp hmem
    · rw [hline]
      rfl
    · obtain ⟨first, hfirst, rfl⟩ := List.mem_map.mp hmem
      exact hlayout first hfirst
  have hstate : Ended state.ahead := by
    rw [hahead]
    refine (ended_append (List.cons_ne_nil _ _)).mpr ?_
    exact Ended.move ((ended_append (List.cons_ne_nil _ _)).mp hended) shift
  by_cases heof : last.kind = .eof
  · rw [topLevel, returns_iterate]
    apply returns_topTurn_of_layout hended rfl rfl hlayout heof
    dsimp only
    rw [returns_iterate]
    exact returns_topTurn_of_layout hstate hahead h.depth hfront heof rfl
  · have halike := h.alike rest hlast heof
    have hplain : Within levels 0
        { State.startBehind other.options state.valueFailed (layout ++ last :: rest) with
          ahead := last :: rest } := by
      refine ⟨(ended_append (List.cons_ne_nil _ _)).mp hended, ?_, rfl, Nat.zero_le _⟩
      rw [List.length_append] at hlevels
      exact Nat.le_trans (Nat.le_add_left _ _) hlevels
    obtain ⟨value, next, hrun, _⟩ : Returns (topLevel (level levels) loose) other _ _ :=
      Parser.returns_topLevel (forward_level levels) loose hplain
    have hback : Returns (topLevel (level levels) loose) other
        { State.startBehind other.options state.valueFailed (layout ++ last :: rest) with
          ahead := last :: rest } fun value' next' => value' = value ∧ next' = next :=
      ⟨value, next, hrun, rfl, rfl⟩
    have hrooted : Rooted shift roots (fun _ _ => True) (roots, loose') ([], loose) :=
      ⟨rfl, trivial⟩
    have hfollows := follows_topLevel (follows_level more levels) (attaching_behind shift) hrooted
      halike hback
    refine returns_topLevel_of_layout hended rfl rfl hlayout hlast (hback.mono ?_)
    rintro _ _ ⟨rfl, rfl⟩
    refine returns_topLevel_of_layout hstate hahead h.depth hfront hlast (hfollows.mono ?_)
    rintro value' _ ⟨_, _, ⟨rfl, rfl⟩, hvalue, _⟩
    exact hvalue.1

theorem numbered_of_step {next : State} (h : Step state next)
    (hstate : Numbered state.expressions) : Numbered next.expressions := by
  cases h with
  | interpolation text => exact (hstate.insert text).2
  | advance =>
      unfold State.advance
      split
      · exact hstate
      · split <;> exact hstate
  | report | valueFailed | use | enter | leave | imports => exact hstate

/-- A parse numbers its interpolations without gaps. -/
theorem numbered_of_reaches {next : State} (h : Reaches state next)
    (hstate : Numbered state.expressions) : Numbered next.expressions :=
  h.invariant (fun _ _ hstep => numbered_of_step hstep) hstate

/-- Behind an element in braces the elements of a text are read as those behind it alone. -/
theorem leads_topLevel_behind {levels : Nat} {loose : Node} (h : AtElement (last :: move shift tokens) state)
    (hline : last.kind = .newline) (hended : Ended tokens)
    (hlevels : state.ahead.length ≤ levels) (hnesting : state.nesting = 0)
    (hnumbered : Numbered state.expressions) (hoptions : context.options = other.options)
    (hsource : ∃ front, context.source = front ++ other.source ∧
      Text.byteLength front = shift.bytes) :
    Leads (topLevel (level levels) loose) context state fun found _ =>
      ∃ before failed ids,
        Returns (topLevel (level (tokens.length + 1)) loose) other
          (State.startBehind other.options failed tokens) fun value _ =>
            found.1 = move { shift with ids := ids } value.1 ++ before := by
  refine leads_topLevel h hlevels fun found next hinside hkeeps => ?_
  obtain ⟨front, hahead, hcloses⟩ := hinside.ahead
  rw [hcloses.eq_nil, List.nil_append] at hahead
  have hbehind : Behind { shift with ids := next.expressions.length } tokens context other next :=
    { options := hoptions
      source := hsource
      ahead := ⟨last, hahead, hline⟩
      depth := hinside.depth
      nesting := hkeeps.nesting.trans hnesting
      number := rfl
      numbered := numbered_of_reaches hkeeps.reaches hnumbered }
  have hlength : tokens.length + 1 ≤ levels := by
    refine Nat.le_trans (Nat.le_trans (Nat.le_of_eq ?_) hkeeps.moved.length_le) hlevels
    rw [hahead, List.length_cons]
    exact congrArg (· + 1) (List.length_map (move shift)).symm
  obtain ⟨more, rfl⟩ := Nat.exists_eq_add_of_le hlength
  have hreturns := hbehind.returns_topLevel hended (Nat.le_succ _) more found loose
  obtain ⟨value, final, hrun, hfront⟩ := hreturns
  exact hfront.leads.mono fun found' _ hfound =>
    ⟨found.1, next.valueFailed, next.expressions.length, value, final, hrun, hfound⟩

/-! ## The tree and its elements -/

/-- Is this the tree of these elements?  A single one may be the root itself. -/
def Gathers (root : Node) (elements : List Node) : Prop :=
  elements = [root] ∨ root.kind = .fragment ∧ root.children = elements

/-- A node that has nothing but directives yet. -/
def Loose (node : Node) : Prop :=
  node.kind = .fragment ∧ node.children = []

theorem Loose.attach {node : Node} (h : Loose node) (directive : Directive) :
    Loose (node.attach directive) := by
  cases directive <;> exact h

theorem leads_attachAll {node : Node} (h : Loose node) (placed : List PlacedDirective) :
    Leads (attachAll node placed) context state fun node _ => Loose node := by
  unfold attachAll
  induction placed generalizing node state with
  | nil => exact leads_pure h
  | cons first rest ih =>
      obtain ⟨log, hattach⟩ := exists_attach node first state
      rw [List.foldlM_cons]
      have hnext : Returns (attach node first) context state fun node _ => Loose node :=
        (hattach context _).mpr (h.attach first.directive)
      exact hnext.leads.bind fun _ _ hloose => ih hloose

theorem leads_topTurn_loose {held : Held} {found : List Node × Node} (h : Loose found.2) :
    Leads (topTurn held found) context state fun result _ =>
      match result with
      | .done found | .yield found => Loose found.2 := by
  obtain ⟨roots, loose⟩ := found
  have hany {α : Type} (p : Parser α) (state : State) : Leads p context state fun _ _ => True :=
    fun _ _ _ => trivial
  refine (hany _ _).bind fun _ next _ => (hany _ _).bind fun leading next _ =>
    (hany _ _).bind fun kind next _ => ?_
  split
  · exact (leads_attachAll h leading).bind fun _ _ hloose => leads_pure hloose
  · exact (hany _ _).bind fun _ _ _ => leads_pure h
  · exact (leads_attachAll h leading).bind fun _ _ hloose =>
      (hany _ _).bind fun _ _ _ => leads_pure hloose

theorem leads_topLevel_loose {held : Held} {loose : Node} (h : Loose loose) :
    Leads (topLevel held loose) context state fun found _ => Loose found.2 := by
  refine Leads.iterate (fun found _ => Loose found.2) h fun found next hloose => ?_
  refine (leads_topTurn_loose hloose).mono fun result _ hresult => ?_
  cases result <;> exact hresult

/-- The tree that is read is that of the elements that are read. -/
theorem leads_document (hended : Ended state.ahead) {levels : Nat}
    (hlevels : levels = state.ahead.length + 1) {elements : List Node}
    (helements : Leads (topLevel (level levels) (.fragment [] default)) context
      state fun found _ => found.1.reverse = elements) :
    Leads document context state fun root _ => Gathers root elements := by
  subst hlevels
  have hstart : Returns startPosition context state fun _ next => next = state :=
    returns_bind.mpr ((returns_current hended).mpr (returns_pure.mpr rfl))
  have hget : Returns get context state fun value next => value = state ∧ next = state :=
    returns_get.mpr ⟨rfl, rfl⟩
  have hloose : Loose (.fragment [] default) := ⟨rfl, rfl⟩
  refine hstart.leads.bind ?_
  rintro start state rfl
  refine hget.leads.bind ?_
  rintro _ state ⟨rfl, rfl⟩
  have hlevel : Leads (topLevel _ (.fragment [] default)) context state fun found _ =>
      found.1.reverse = elements ∧ Loose found.2 :=
    fun found next hrun => ⟨helements found next hrun, leads_topLevel_loose hloose found next hrun⟩
  refine hlevel.bind ?_
  rintro ⟨roots, loose⟩ next ⟨hroots, hkind, hchildren⟩
  dsimp only at hroots hkind hchildren ⊢
  split
  next =>
    rw [← hroots]
    have hlocation : Leads (locationFrom start) context next fun _ _ => True :=
      fun _ _ _ => trivial
    exact hlocation.bind fun _ _ _ => leads_pure (.inr ⟨hkind, hchildren⟩)
  next =>
    split
    next hlist _ =>
      rw [hlist] at hroots
      exact leads_pure (.inl hroots.symm)
    next => exact leads_pure (.inr ⟨hkind, hroots⟩)

end Parser

open Movable (move)

namespace Document

/-- The elements of a text that stands behind others; `failed` says whether the last value in
front of it could not be read. -/
def elements (options : ParseOptions) (failed : Bool) (source : List Char) : List Node :=
  match Parser.topLevel (Parser.level ((tokenize source).length + 1)) (.fragment [] default) ⟨source, options⟩
      (.startBehind options failed (tokenize source)) with
  | .ok (found, _) => found.1.reverse
  | .error _ => []

theorem elements_of_returns {options : ParseOptions} {failed : Bool} {source : List Char}
    {roots : List Node}
    (h : Parser.Returns (Parser.topLevel (Parser.level ((tokenize source).length + 1)) (.fragment [] default))
      ⟨source, options⟩ (.startBehind options failed (tokenize source)) fun found _ =>
        found.1 = roots) :
    elements options failed source = roots.reverse := by
  obtain ⟨found, next, hrun, hfound⟩ := h
  rw [elements, hrun]
  exact congrArg List.reverse hfound

theorem returns_elements (options : ParseOptions) (failed : Bool) (source : List Char) :
    Parser.Returns (Parser.topLevel (Parser.level ((tokenize source).length + 1)) (.fragment [] default))
      ⟨source, options⟩ (.startBehind options failed (tokenize source)) fun found _ =>
        found.1.reverse = elements options failed source := by
  have hwithin : Parser.Within ((tokenize source).length + 1) 0
      (.startBehind options failed (tokenize source)) :=
    ⟨ended_tokenize source, Nat.le_succ _, rfl, Nat.zero_le _⟩
  obtain ⟨found, next, hrun, _⟩ : Parser.Returns _ ⟨source, options⟩ _ _ :=
    Parser.returns_topLevel (Parser.forward_level _) (.fragment [] default) hwithin
  exact ⟨found, next, hrun, (elements_of_returns ⟨found, next, hrun, rfl⟩).symm⟩

/-- The tree of a text is that of its elements. -/
theorem gathers_parse (options : ParseOptions) (source : List Char) :
    Parser.Gathers (parse options source).root (elements options false source) := by
  have helements := (returns_elements options false source).leads
  have hended := ended_tokenize source
  rw [parse, ofTokens, Parser.run, Parser.withEnd_tokenize]
  generalize elements options false source = elements at *
  generalize tokenize source = tokens at *
  have hstart : Parser.State.startBehind options false tokens = .start options tokens := rfl
  rw [hstart] at helements
  obtain ⟨root, next, hrun, _⟩ :=
    @Parser.returns_document ⟨source, options⟩ (.start options tokens) hended (Nat.zero_le _)
  rw [hrun]
  have hlevels : tokens.length + 1 = (Parser.State.start options tokens).ahead.length + 1 := rfl
  exact Parser.leads_document hended hlevels helements root next hrun

theorem isWord_of_isConstruct {word : String} (h : Vocabulary.isConstruct word = true) :
    Lexeme.isWord word.toList = true := by
  have hall : ∀ word ∈ Vocabulary.elements ++ Vocabulary.geometries ++ Vocabulary.structural ++
      Vocabulary.compositions, Lexeme.isWord word.toList = true := by decide +kernel
  refine hall word ?_
  simp only [Vocabulary.isConstruct, Vocabulary.isElement, Bool.or_eq_true, List.contains_iff_mem]
    at h
  simp only [List.mem_append]
  exact h

/-- The elements behind one in braces are those of the text behind it alone, further down, read
as after a value that could not be read if there is one such in the braces and no value behind
it. -/
theorem elements_behind_block (options : ParseOptions) {keyword : String}
    (hkeyword : Vocabulary.isConstruct keyword = true) {inner : List Char} (hstops : Stops inner)
    (hnested : Token.Nested (tokenize inner)) (source : List Char) :
    ∃ before failed ids,
      elements options false (blockLines keyword.toList inner ++ source) =
        before ++ move
          ⟨(blockLines keyword.toList inner).count '\n',
            Text.byteLength (blockLines keyword.toList inner), ids⟩
          (elements options failed source) := by
  obtain ⟨word, brace, front, line, htokens, hword, hbrace, hcloses, hline⟩ :=
    exists_tokenize_blockLines (isWord_of_isConstruct hkeyword) hstops hnested source 0
  have hended := ended_tokenize source
  have hwhole := ended_tokenize (blockLines keyword.toList inner ++ source)
  obtain ⟨found, last, hrun, hfound⟩ :=
    returns_elements options false (blockLines keyword.toList inner ++ source)
  rw [← hfound]
  generalize tokenize (blockLines keyword.toList inner ++ source) = tokens at htokens hwhole hrun
  have helement : Parser.AtElement (line :: move _ (tokenize source))
      (.startBehind options false tokens) :=
    ⟨⟨word, brace, front, htokens, hword, hbrace, hcloses⟩, rfl, hended.behind_line line _,
      Nat.zero_le _⟩
  have hlevels : (Parser.State.startBehind options false tokens).ahead.length ≤
      tokens.length + 1 := Nat.le_succ _
  let other : Parser.Context := ⟨source, options⟩
  have hleads : Parser.Leads (Parser.topLevel (Parser.level (tokens.length + 1))
      (.fragment [] default)) ⟨blockLines keyword.toList inner ++ other.source, options⟩
      (.startBehind options false tokens) _ :=
    Parser.leads_topLevel_behind helement hline hended hlevels rfl Parser.numbered_nil
      (show options = other.options from rfl) ⟨_, rfl, rfl⟩
  obtain ⟨before, failed, ids, value, next, hback, hroots⟩ := hleads found last hrun
  refine ⟨before.reverse, failed, ids, ?_⟩
  rw [elements_of_returns ⟨value, next, hback, rfl⟩, hroots, List.reverse_append]
  exact congrArg (before.reverse ++ ·) (List.map_reverse).symm

/-- How many entries the states of an element have. -/
def stateSizes (node : Node) : List Nat :=
  node.directives.map fun
    | .state config => config.length
    | _ => 0

theorem stateSizes_move (shift : Shift) (node : Node) :
    stateSizes (move shift node) = stateSizes node := by
  have hdirectives : (move shift node).directives = node.directives.map (move shift) := by
    rw [Node.move_eq]
    rfl
  rw [stateSizes, stateSizes, hdirectives, List.map_map]
  refine List.map_congr_left fun directive _ => ?_
  cases directive with
  | state config => exact List.length_map _
  | conditional condition body elseBody => cases elseBody <;> rfl
  | _ => rfl

/-- An element whose state has two entries, with no comma between them. -/
def twoEntries : List Char :=
  "object b \x7b @state \x7b a: 1 b: 2 \x7d \x7d\n".toList

theorem elements_behind_missing_value :
    Vocabulary.isConstruct "object" = true ∧ Stops "x: ,".toList ∧
      Token.Nested (tokenize "x: ,".toList) ∧
      ∃ before failed ids,
        elements .default false (blockLines "object".toList "x: ,".toList ++ twoEntries) =
          before ++ move
            ⟨(blockLines "object".toList "x: ,".toList).count '\n',
              Text.byteLength (blockLines "object".toList "x: ,".toList), ids⟩
            (elements .default failed twoEntries) := by
  have hstops : Stops "x: ,".toList := by decide +kernel
  have hnested : Token.Nested (tokenize "x: ,".toList) := by decide +kernel
  exact ⟨by decide, hstops, hnested,
    elements_behind_block .default (by decide) hstops hnested twoEntries⟩

/-- Behind an element with a property that has no value, an entry of a state is lost. -/
theorem entry_lost_behind_missing_value :
    ¬∃ before ids,
      elements .default false (blockLines "object".toList "x: ,".toList ++ twoEntries) =
        before ++ move
          ⟨(blockLines "object".toList "x: ,".toList).count '\n',
            Text.byteLength (blockLines "object".toList "x: ,".toList), ids⟩
          (elements .default false twoEntries) := by
  rintro ⟨before, ids, hbehind⟩
  have hwhole : (elements .default false
      (blockLines "object".toList "x: ,".toList ++ twoEntries)).map stateSizes = [[], [1]] := by
    decide +kernel
  have halone : (elements .default false twoEntries).map stateSizes = [[2]] := by
    decide +kernel
  have hmoved (shift : Shift) (nodes : List Node) :
      (move shift nodes).map stateSizes = nodes.map stateSizes := by
    refine (List.map_map ..).trans (List.map_congr_left fun node _ => ?_)
    exact stateSizes_move shift node
  rw [hbehind, List.map_append, hmoved, halone] at hwhole
  have hlast := congrArg List.getLast? hwhole
  rw [List.getLast?_concat] at hlast
  cases hlast

end Document

end SceneLang
