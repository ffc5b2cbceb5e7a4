import SceneLang.Proofs.Grammar.Levels

/-!
# What is derived is read

Each rule of the grammar is read by the parser of its level: if its parts are, then so is the
whole.  A value is followed up to where the loop of its level begins, so that an operand on
the left and the operators behind it are read in one go.
-/

namespace SceneLang
namespace Grammar

open Parser

/-! ## What a rule has to show -/

/-- The parser is in front of some tokens, with room for so many levels of values. -/
structure Start (depth : Nat) (table : Table String) (tokens : List Token) (state : State) :
    Prop where
  ended : Ended state.ahead
  visible : state.visibleFrom 0 = tokens
  room : state.nesting + depth ≤ maxNesting
  calm : state.valueFailed = false
  table : state.expressions = table

theorem Start.sees {depth : Nat} {table : Table String} {token : Token} {rest : List Token}
    {state : State} (h : Start depth table (token :: rest) state) : Sees token rest state :=
  ⟨h.ended, h.visible⟩

theorem Read.start {depth line : Nat} {table : Table String} {ahead : List Token}
    {state next : State} (h : Read line ahead table state next)
    (hhead : ∀ first ∈ ahead.head?, Plain first) (hroom : state.nesting + depth ≤ maxNesting) :
    Start depth table ahead next := by
  refine ⟨h.ended, ?_, by rwa [h.nesting], h.calm, h.table⟩
  cases hahead : ahead with
  | nil => exact absurd (h.ahead.trans hahead) h.ended.ne_nil
  | cons first rest =>
      subst hahead
      exact (h.sees (hhead first rfl).1).visible

/-- Behind the opening token of a list come its items, if any, and the closing token. -/
theorem Read.start_closing {depth line : Nat} {table : Table String} {tokens rest : List Token}
    {closing : Token} {state next : State}
    (h : Read line (tokens ++ closing :: rest) table state next)
    (hplain : ∀ token ∈ tokens, Plain token) (hclosing : Plain closing)
    (hroom : state.nesting + depth ≤ maxNesting) :
    Start depth table (tokens ++ closing :: rest) next := by
  refine h.start ?_ hroom
  intro first hfirst
  cases tokens with
  | nil =>
      cases hfirst
      exact hclosing
  | cons token tokens =>
      cases hfirst
      exact hplain first List.mem_cons_self

/-- Behind a part of a value comes the next one. -/
theorem Derives.start {depth line : Nat} {phrase : Phrase} {before after : Table String}
    {tokens rest : List Token} {state next : State}
    (h : Derives depth phrase before tokens after) (hfull : ¬MayBeEmpty phrase)
    (hread : Read line (tokens ++ rest) before state next)
    (hroom : state.nesting + depth ≤ maxNesting) :
    Start depth before (tokens ++ rest) next := by
  obtain ⟨hempty, -⟩ | ⟨first, others, rfl, -⟩ := h.head
  · exact absurd hempty hfull
  · refine hread.start (fun other hother => ?_) hroom
    cases hother
    exact h.plain first List.mem_cons_self

/-- The parser reads the tokens as a value, and goes on from there. -/
def ReadsAs (p : Parser Value) (finish : Value → Parser Value) (value : Value) (line : Nat)
    (after : Table String) (rest : List Token) (context : Context) (state : State) : Prop :=
  ∀ post, (∀ next, Read line rest after state next → Returns (finish value) context next post) →
    Returns p context state post

/-- The items of a list are read in front of a closing token. -/
def ReadsItems (inner : Inner) (values : List Value) (line : Nat) (after : Table String)
    (rest : List Token) (context : Context) (state : State) : Prop :=
  ∀ delimiter closing others, delimiter ≠ .brace → rest = closing :: others →
    closing.kind = delimiter.closing → ∀ items post,
      (∀ next, Read line rest after state next →
        Returns (iterate (values.reverse ++ items, false) fun found =>
          sequenceTurn inner delimiter found.1) context next post) →
      Returns (iterate (items, false) fun found => sequenceTurn inner delimiter found.1)
        context state post

/-- The entries of an object are read in front of its closing brace. -/
def ReadsEntries (inner : Inner) (found : List ObjectEntry) (line : Nat) (after : Table String)
    (rest : List Token) (context : Context) (state : State) : Prop :=
  ∀ opening closing others, rest = closing :: others → closing.kind = .rightBrace →
    ∀ entries post,
      (∀ next, Read line rest after state next →
        Returns (iterate (found.reverse ++ entries, false) fun found =>
          objectTurn inner opening found.1) context next post) →
      Returns (iterate (entries, false) fun found => objectTurn inner opening found.1)
        context state post

/-- The parser of a phrase reads the tokens of the phrase. -/
def Parses (depth : Nat) (phrase : Phrase) (before : Table String) (tokens : List Token)
    (after : Table String) : Prop :=
  ∀ line levels context state rest, (∀ token ∈ tokens, token.line = line) → depth ≤ levels →
    Start depth before (tokens ++ rest) state →
    match phrase with
    | .expr level value =>
        Stops level.border line state.braceDepth rest →
          ReadsAs (level.parser (nested levels)) (level.resume (nested levels)) value line after
            rest context state
    | .nested strength value =>
        Stops (.ofStrength strength) line state.braceDepth rest →
          ReadsAs (nested levels strength) pure value line after rest context state
    | .item value =>
        Stops .coalesce line state.braceDepth rest →
          ReadsAs (sequenceItem (nested levels)) pure value line after rest context state
    | .items values =>
        state.ahead = tokens ++ rest → state.previous.map Token.line = some line →
          ReadsItems (nested levels) values line after rest context state
    | .entries entries =>
        state.ahead = tokens ++ rest → state.previous.map Token.line = some line →
          ReadsEntries (nested levels) entries line after rest context state

section

variable {depth line levels : Nat} {before middle after : Table String} {context : Context}
  {state next : State} {token opening closing : Token} {front tokens rest : List Token}

/-- Where a value ends, the loop of its level is over. -/
theorem ReadsAs.settle {level : Level} {inner : Inner} {value : Value}
    (h : ReadsAs (level.parser inner) (level.resume inner) value line after rest context state)
    (hstops : Stops level line state.braceDepth rest) :
    ReadsAs (level.parser inner) pure value line after rest context state := by
  intro post hpost
  apply h post
  intro next hread
  obtain ⟨follow, others, hfollow, hends⟩ := hstops.sees hread
  exact returns_resume_of_ends hfollow hread.line hends (returns_pure.mp (hpost next hread))

theorem Parses.settle {level : Level} {value : Value}
    (ih : Parses depth (.expr level value) before tokens after)
    (htokens : ∀ token ∈ tokens, token.line = line) (hlevels : depth ≤ levels)
    (hstart : Start depth before (tokens ++ rest) state)
    (hstops : Stops level line state.braceDepth rest) :
    ReadsAs (level.parser (nested levels)) pure value line after rest context state :=
  (ih line levels context state rest htokens hlevels hstart
    (hstops.mono level.border_rank_le)).settle hstops

/-! ## Primary values -/

theorem Start.read_advance (h : Start depth before (token :: rest) state) (hplain : Plain token)
    (hbraces : depthAfter state.braceDepth token.kind = state.braceDepth)
    (hline : token.line = line) : Read line rest before state state.advance := by
  have hread := h.sees.read_advance hplain hbraces h.calm
  rwa [hline, h.table] at hread

theorem parses_literal {kind : TokenKind} {value : Value} (hkind : token.kind = kind)
    (hplain : Plain token) (hbraces : ∀ depth, depthAfter depth kind = depth)
    (hprimary : ∀ inner context state rest post, Sees token rest state →
      Returns (do advance; return value) context state post →
      Returns (primary inner) context state post) :
    Parses depth (.expr .primary value) before [token] before := by
  intro line levels context state rest hline _ hstart _ post hpost
  have hread : Read line rest before state state.advance :=
    hstart.read_advance hplain (by rw [hkind, hbraces]) (hline token List.mem_cons_self)
  apply hprimary _ context state rest post hstart.sees
  rw [returns_bind, hstart.sees.advance]
  exact hpost state.advance hread

theorem parses_string (hkind : token.kind = .string) :
    Parses depth (.expr .primary (.string token.text)) before [token] before := by
  apply parses_literal hkind (.of_kind hkind rfl) (fun _ => rfl)
  intro inner context state rest post hsees hrest
  rw [primary, returns_bind, hsees.current, hkind]
  exact hrest

theorem parses_number (hkind : token.kind = .number) :
    Parses depth (.expr .primary (.ofLiteral token.text)) before [token] before := by
  apply parses_literal hkind (.of_kind hkind rfl) (fun _ => rfl)
  intro inner context state rest post hsees hrest
  rw [primary, returns_bind, hsees.current, hkind]
  exact hrest

theorem parses_boolean (hkind : token.kind = .boolean) :
    Parses depth (.expr .primary (.bool (token.text = "true"))) before [token] before := by
  apply parses_literal hkind (.of_kind hkind rfl) (fun _ => rfl)
  intro inner context state rest post hsees hrest
  rw [primary, returns_bind, hsees.current, hkind]
  exact hrest

theorem parses_null (hkind : token.kind = .null) :
    Parses depth (.expr .primary .null) before [token] before := by
  apply parses_literal hkind (.of_kind hkind rfl) (fun _ => rfl)
  intro inner context state rest post hsees hrest
  rw [primary, returns_bind, hsees.current, hkind]
  exact hrest

theorem parses_interpolation (hkind : token.kind = .interpolation) :
    Parses depth (.expr .primary (.interpolation (interpolationId before) token.text)) before
      [token] (before.insert (interpolationId before) token.text) := by
  intro line levels context state rest hline _ hstart _ post hpost
  have hread : Read line rest before state state.advance :=
    hstart.read_advance (.of_kind hkind rfl) (by rw [hkind]; rfl) (hline token List.mem_cons_self)
  rw [Level.parser, primary, returns_bind, hstart.sees.current, hkind]
  dsimp only
  rw [returns_bind, hstart.sees.advance, interpolation, returns_bind]
  apply returns_use_features
  intro features
  rw [returns_bind, returns_get, returns_bind, returns_modify, hread.table]
  exact hpost _ ⟨hread.ended, hread.ahead, hread.shorter, hread.line, hread.braceDepth,
    hread.nesting, hread.calm, hread.log, hread.imports, rfl⟩

/-- A name is a value by itself where it is no parameter of a function. -/
theorem parses_reference (hkind : token.kind = .identifier) :
    Parses depth (.expr .primary (.reference token.text)) before [token] before := by
  intro line levels context state rest hline _ hstart hstops post hpost
  have hread : Read line rest before state state.advance :=
    hstart.read_advance (.of_kind hkind rfl) (by rw [hkind]; rfl) (hline token List.mem_cons_self)
  obtain ⟨follow, others, hfollow, hends⟩ := hstops.sees hread
  have harrow : (state.tokenAt 1).kind ≠ .fatArrow := by
    rw [← advance_token hstart.ended (by rw [hstart.sees.token_eq, hkind]), hfollow.token_eq]
    intro harrow
    have hjoins : joins? line follow = some .primary := by rw [joins?, harrow]
    exact absurd (hends .primary hjoins) (Nat.lt_irrefl _)
  rw [Level.parser, primary, returns_bind, hstart.sees.current, hkind]
  dsimp only
  rw [returns_bind, returns_peekKind hstart.ended, if_neg harrow, returns_bind,
    hstart.sees.advance]
  exact hpost state.advance hread

/-! ## Values in brackets -/

/-- Where parameters of a function are ahead, the first closing parenthesis is in front of an
arrow. -/
theorem paramsAhead_split {tokens : List Token} (h : paramsAhead tokens = true) :
    ∃ params paren arrow others, tokens = params ++ paren :: arrow :: others ∧
      paren.kind = .rightParen ∧ arrow.kind = .fatArrow ∧
      ∀ token ∈ params, token.kind ≠ .rightParen := by
  induction tokens using paramsAhead.induct with
  | case1 _ _ _ _ _ _ rest ih =>
      rw [paramsAhead] at h
      obtain ⟨params, paren, arrow, others, rfl, hparen, harrow, hfree⟩ := ih h
      refine ⟨_ :: _ :: params, paren, arrow, others, rfl, hparen, harrow, ?_⟩
      rw [List.forall_mem_cons, List.forall_mem_cons]
      exact ⟨by simp, by simp, hfree⟩
  | case2 _ _ _ _ _ _ _ _ _ rest ih =>
      rw [paramsAhead] at h
      obtain ⟨params, paren, arrow, others, rfl, hparen, harrow, hfree⟩ := ih h
      refine ⟨_ :: _ :: _ :: params, paren, arrow, others, rfl, hparen, harrow, ?_⟩
      rw [List.forall_mem_cons, List.forall_mem_cons, List.forall_mem_cons]
      exact ⟨by simp, by simp, by simp, hfree⟩
  | case3 => exact ⟨[_], _, _, _, rfl, rfl, rfl, by simp⟩
  | case4 => exact ⟨[_, _], _, _, _, rfl, rfl, rfl, by simp⟩
  | case5 tokens =>
      rw [paramsAhead] at h
      · contradiction
      all_goals assumption

theorem opensArrow_split {tokens : List Token} (h : opensArrow tokens = true) :
    ∃ params paren arrow others, tokens = params ++ paren :: arrow :: others ∧
      paren.kind = .rightParen ∧ arrow.kind = .fatArrow ∧
      ∀ token ∈ params, token.kind ≠ .rightParen := by
  unfold opensArrow at h
  split at h
  next => exact ⟨[], _, _, _, rfl, rfl, rfl, by simp⟩
  next => exact paramsAhead_split h

/-- A value in parentheses that no arrow follows is not taken for parameters: the parenthesis in
front of an arrow would be the closing one. -/
theorem opensArrow_eq_false (hplain : ∀ token ∈ tokens, Plain token)
    (hclosing : closing.kind = .rightParen) (hstops : Stops .primary line depth rest) :
    opensArrow (tokens ++ closing :: rest) = false := by
  rw [← Bool.not_eq_true]
  intro hopens
  obtain ⟨params, paren, arrow, others, hsplit, -, harrow, hfree⟩ := opensArrow_split hopens
  have hnext : rest ≠ arrow :: others := by
    rintro rfl
    obtain ⟨next, more, hvisible, hends⟩ := hstops
    rw [visible_cons (by rw [harrow]; rfl)] at hvisible
    injection hvisible with hnext _
    subst hnext
    have hjoins : joins? line arrow = some .primary := by rw [joins?, harrow]
    exact absurd (hends .primary hjoins) (Nat.lt_irrefl _)
  rcases List.append_eq_append_iff.mp hsplit with ⟨more, hparams, hback⟩ | ⟨more, htokens, hback⟩
  · cases more with
    | nil =>
        injection hback with _ hrest
        exact hnext hrest
    | cons first more =>
        injection hback with hfirst _
        refine hfree first ?_ (by rw [← hfirst, hclosing])
        rw [hparams]
        exact List.mem_append_right _ List.mem_cons_self
  · match more with
    | [] =>
        injection hback with _ hrest
        exact hnext hrest.symm
    | [only] =>
        injection hback with _ hrest
        injection hrest with hkind _
        rw [← hkind, harrow] at hclosing
        contradiction
    | first :: second :: more =>
        injection hback with _ hrest
        injection hrest with hsecond _
        refine (hplain second ?_).2.2 (by rw [← hsecond, harrow])
        rw [htokens]
        exact List.mem_append_right _ (List.mem_cons_of_mem _ List.mem_cons_self)

theorem bracketed_append (opening closing : Token) (tokens rest : List Token) :
    opening :: (tokens ++ [closing]) ++ rest = opening :: (tokens ++ closing :: rest) := by
  rw [List.cons_append, List.append_assoc, List.singleton_append]

theorem parses_parens {value : Value} (hopening : opening.kind = .leftParen)
    (hclosing : closing.kind = .rightParen)
    (hvalue : Derives depth (.nested .any value) before tokens after)
    (ih : Parses depth (.nested .any value) before tokens after) :
    Parses depth (.expr .primary value) before (opening :: (tokens ++ [closing])) after := by
  intro line levels context state rest hline hlevels hstart hstops post hpost
  rw [List.forall_mem_cons, List.forall_mem_append, List.forall_mem_singleton] at hline
  obtain ⟨hopeningLine, htokens, hclosingLine⟩ := hline
  rw [bracketed_append] at hstart
  have hopened := hstart.read_advance (.of_kind hopening rfl) (by rw [hopening]; rfl) hopeningLine
  have hinside := hvalue.start id hopened hstart.room
  have hends : Stops .coalesce line state.advance.braceDepth (closing :: rest) :=
    stops_cons (by rw [hclosing]; rfl) (ends_of_joins?_eq_none (by rw [joins?, hclosing]))
  rw [Level.parser, primary, returns_bind, hstart.sees.current, hopening]
  dsimp only
  rw [returns_bind, arrowAhead, returns_bind, returns_get, returns_pure]
  have harrow : opensArrow (state.visibleFrom 0).tail = false := by
    rw [hstart.visible]
    exact opensArrow_eq_false hvalue.plain hclosing hstops
  rw [harrow, if_neg Bool.false_ne_true, returns_bind, hstart.sees.advance, returns_bind]
  apply ih line levels context state.advance (closing :: rest) htokens hlevels hinside hends _
  intro next hread
  have hclosed := (hopened.trans hread).advance (.of_kind hclosing rfl) (by rw [hclosing]; rfl)
    hclosingLine
  have hkind : closing.kind = Delimiter.paren.closing := hclosing
  have hsees := hread.sees (by rw [hclosing]; rfl)
  rw [returns_pure, returns_bind, returns_expectClosing hsees hkind]
  exact hpost next.advance hclosed

theorem plain_closing {delimiter : Delimiter} (h : token.kind = delimiter.closing) :
    Plain token := by
  cases delimiter <;> exact .of_kind h rfl

theorem depthAfter_closing {delimiter : Delimiter} (hbrackets : delimiter ≠ .brace)
    (h : token.kind = delimiter.closing) (depth : Nat) :
    depthAfter depth token.kind = depth := by
  cases delimiter with
  | brace => contradiction
  | paren | bracket =>
      rw [h]
      rfl

theorem joins?_closing {delimiter : Delimiter} (h : token.kind = delimiter.closing) :
    joins? line token = none := by
  cases delimiter <;> rw [joins?, h] <;> rfl

theorem ReadsItems.sequence {inner : Inner} {values : List Value} {delimiter : Delimiter}
    (h : ReadsItems inner values line after (closing :: rest) context state)
    (hbrackets : delimiter ≠ .brace) (hclosing : closing.kind = delimiter.closing)
    (hline : closing.line = line) {post : List Value → State → Prop}
    (hpost : ∀ next, Read line rest after state next → post values next) :
    Returns (sequence inner delimiter) context state post := by
  rw [Parser.sequence, returns_bind]
  apply h delimiter closing rest hbrackets rfl hclosing [] _
  intro next hread
  have hplain := plain_closing hclosing
  have hsees := hread.sees hplain.1
  have hclosed := hread.advance hplain (depthAfter_closing hbrackets hclosing _) hline
  rw [returns_iterate, sequenceTurn, returns_bind, hsees.eat_of_eq hclosing, if_pos rfl,
    returns_pure]
  dsimp only
  rw [if_pos rfl, returns_bind, returns_setValueFailed hclosed.calm, returns_pure,
    List.append_nil, List.reverse_reverse]
  exact hpost next.advance hclosed

theorem parses_array {values : List Value} (hopening : opening.kind = .leftBracket)
    (hclosing : closing.kind = .rightBracket)
    (hitems : Derives depth (.items values) before tokens after)
    (ih : Parses depth (.items values) before tokens after) :
    Parses depth (.expr .primary (.array values)) before (opening :: (tokens ++ [closing]))
      after := by
  intro line levels context state rest hline hlevels hstart _ post hpost
  rw [List.forall_mem_cons, List.forall_mem_append, List.forall_mem_singleton] at hline
  obtain ⟨hopeningLine, htokens, hclosingLine⟩ := hline
  rw [bracketed_append] at hstart
  have hopened := hstart.read_advance (.of_kind hopening rfl) (by rw [hopening]; rfl) hopeningLine
  rw [Level.parser, primary, returns_bind, hstart.sees.current, hopening]
  dsimp only
  rw [returns_bind, hstart.sees.advance, returns_bind]
  have hkind : closing.kind = Delimiter.bracket.closing := hclosing
  have hinside := hopened.start_closing hitems.plain (plain_closing hkind) hstart.room
  have hreads := ih line levels context state.advance (closing :: rest) htokens hlevels hinside
    hopened.ahead hopened.line
  apply hreads.sequence (by simp) hkind hclosingLine
  intro next hread
  exact hpost next (hopened.trans hread)

/-- Between its braces an object is read one brace deeper. -/
theorem parses_object {entries : List ObjectEntry} (hopening : opening.kind = .leftBrace)
    (hclosing : closing.kind = .rightBrace)
    (hentries : Derives depth (.entries entries) before tokens after)
    (ih : Parses depth (.entries entries) before tokens after) :
    Parses depth (.expr .primary (.object entries)) before (opening :: (tokens ++ [closing]))
      after := by
  intro line levels context state rest hline hlevels hstart _ post hpost
  rw [List.forall_mem_cons, List.forall_mem_append, List.forall_mem_singleton] at hline
  obtain ⟨hopeningLine, htokens, hclosingLine⟩ := hline
  rw [bracketed_append] at hstart
  have hplain : Plain opening := .of_kind hopening rfl
  have hentered : state.advance = _ := hstart.sees.advance_eq hplain
  have hinside : Read line (tokens ++ closing :: rest) before state.advance state.advance := by
    rw [hentered]
    exact ⟨hstart.sees.ended_rest hplain, rfl, Nat.le_refl _, by rw [← hopeningLine]; rfl, rfl,
      rfl, hstart.calm, rfl, rfl, hstart.table⟩
  have hroom : state.advance.nesting + depth ≤ maxNesting := by
    rw [hentered]
    exact hstart.room
  rw [Level.parser, primary, returns_bind, hstart.sees.current, hopening]
  dsimp only
  rw [returns_bind, objectEntries, returns_bind, hstart.sees.current, returns_bind,
    hstart.sees.advance, returns_bind]
  refine ih line levels context state.advance (closing :: rest) htokens hlevels
    (hinside.start_closing hentries.plain (.of_kind hclosing rfl) hroom) hinside.ahead hinside.line
    opening closing rest rfl hclosing [] _ fun next hread => ?_
  have hsees := hread.sees (by rw [hclosing]; rfl)
  rw [returns_iterate, objectTurn, returns_bind, hsees.current, hclosing]
  dsimp only
  have hclosed : Read line rest after state next.advance := by
    have hplain : Plain closing := .of_kind hclosing rfl
    have hshorter := Nat.le_of_lt (Nat.lt_of_lt_of_le (hsees.shorter hplain) hread.shorter)
    rw [hentered] at hread hshorter
    rw [hsees.advance_eq hplain]
    refine ⟨hsees.ended_rest hplain, rfl, ?_, by rw [← hclosingLine]; rfl, ?_, hread.nesting,
      hread.calm, hread.log, hread.imports, hread.table⟩
    · exact Nat.le_trans hshorter (Nat.le_of_lt (hstart.sees.shorter (.of_kind hopening rfl)))
    · simp only [hread.braceDepth, hopening, hclosing, depthAfter, Nat.add_sub_cancel]
  rw [returns_bind, hsees.advance, returns_pure]
  dsimp only
  rw [if_pos rfl, returns_bind, returns_setValueFailed hclosed.calm, returns_pure,
    List.append_nil, List.reverse_reverse]
  exact hpost next.advance hclosed

/-! ## What follows a primary value -/

theorem parses_member {dot name : Token} {target : Value} (hdot : dot.kind = .dot)
    (hname : name.kind = .identifier)
    (ih : Parses depth (.expr .access target) before tokens after) :
    Parses depth (.expr .access (.member target name.text)) before (tokens ++ [dot, name])
      after := by
  intro line levels context state rest hline hlevels hstart hstops post hpost
  rw [List.forall_mem_append, List.forall_mem_cons, List.forall_mem_singleton] at hline
  obtain ⟨htokens, hdotLine, hnameLine⟩ := hline
  rw [List.append_assoc] at hstart
  have hends : Stops .primary line state.braceDepth (dot :: name :: rest) := by
    apply stops_cons (by rw [hdot]; rfl)
    intro joined hjoined
    rw [joins?, hdot] at hjoined
    cases hjoined
    decide
  apply ih line levels context state _ htokens hlevels hstart hends _
  intro next hread
  have hdotted := hread.advance (.of_kind hdot rfl) (by rw [hdot]; rfl) hdotLine
  have hnamed := hdotted.advance (.of_kind hname rfl) (by rw [hname]; rfl) hnameLine
  have hsees := hread.sees (by rw [hdot]; rfl)
  have hsees' := hdotted.sees (by rw [hname]; rfl)
  rw [Level.resume, if_pos rfl, returns_iterate, postfixTurn, returns_bind, hsees.current,
    returns_bind, returns_previousLine hread.line, hdot]
  dsimp only
  rw [returns_bind, hsees.advance, returns_bind, hsees'.current, if_pos hname, returns_bind,
    hsees'.advance, returns_pure]
  refine ⟨?_, hpost next.advance.advance hnamed⟩
  have hrest : next.advance.advance.ahead = rest := hnamed.ahead
  rw [hrest, hread.ahead, List.length_append]
  exact Nat.lt_add_of_pos_left (Nat.succ_pos 1)

/-- An index and the arguments of a call have to be on the line of the value. -/
theorem joins?_opening (hopening : token.kind = .leftBracket ∨ token.kind = .leftParen)
    (hline : token.line = line) : joins? line token = some .access := by
  rcases hopening with hkind | hkind <;> rw [joins?, hkind] <;> exact if_pos hline

theorem stops_opening (hopening : token.kind = .leftBracket ∨ token.kind = .leftParen)
    (hline : token.line = line) : Stops .primary line depth (token :: rest) := by
  have hlayout : token.kind.isLayout = false := by
    rcases hopening with hkind | hkind <;> rw [hkind] <;> rfl
  apply stops_cons hlayout
  intro joined hjoined
  rw [joins?_opening hopening hline] at hjoined
  cases hjoined
  decide

theorem parses_index {inside : List Token} {target key : Value}
    (hopening : opening.kind = .leftBracket) (hclosing : closing.kind = .rightBracket)
    (hkey : Derives depth (.nested .any key) middle inside after)
    (ih : Parses depth (.expr .access target) before tokens middle)
    (ihKey : Parses depth (.nested .any key) middle inside after) :
    Parses depth (.expr .access (.index target key)) before
      (tokens ++ opening :: (inside ++ [closing])) after := by
  intro line levels context state rest hline hlevels hstart hstops post hpost
  rw [List.forall_mem_append, List.forall_mem_cons, List.forall_mem_append,
    List.forall_mem_singleton] at hline
  obtain ⟨htokens, hopeningLine, hinside, hclosingLine⟩ := hline
  rw [List.append_assoc, bracketed_append] at hstart
  have hends : Stops .primary line state.braceDepth (opening :: (inside ++ closing :: rest)) :=
    stops_opening (.inl hopening) hopeningLine
  apply ih line levels context state _ htokens hlevels hstart hends _
  intro next hread
  have hopened := hread.advance (.of_kind hopening rfl) (by rw [hopening]; rfl) hopeningLine
  have hkind : closing.kind = Delimiter.bracket.closing := hclosing
  have hstops' : Stops .coalesce line next.advance.braceDepth (closing :: rest) :=
    stops_cons (plain_closing hkind).1 (ends_of_joins?_eq_none (joins?_closing hkind))
  have hsees := hread.sees (by rw [hopening]; rfl)
  rw [Level.resume, if_pos rfl, returns_iterate, postfixTurn, returns_bind, hsees.current,
    returns_bind, returns_previousLine hread.line, hopening]
  dsimp only
  rw [if_pos hopeningLine, returns_bind, hsees.advance, returns_bind]
  refine ihKey line levels context next.advance _ hinside hlevels
    (hkey.start id hopened hstart.room) hstops' _ fun last hlast => ?_
  have hclosed := (hopened.trans hlast).advance (plain_closing hkind) (by rw [hclosing]; rfl)
    hclosingLine
  rw [returns_pure, returns_bind, returns_expectClosing (hlast.sees (plain_closing hkind).1) hkind,
    returns_pure]
  refine ⟨?_, hpost last.advance hclosed⟩
  rw [hread.ahead, hclosed.ahead, List.length_cons, List.length_append, List.length_cons]
  omega

theorem parses_call {inside : List Token} {callee : Value} {args : List Value}
    (hopening : opening.kind = .leftParen) (hclosing : closing.kind = .rightParen)
    (hargs : Derives depth (.items args) middle inside after)
    (ih : Parses depth (.expr .access callee) before tokens middle)
    (ihArgs : Parses depth (.items args) middle inside after) :
    Parses depth (.expr .access (.call callee args)) before
      (tokens ++ opening :: (inside ++ [closing])) after := by
  intro line levels context state rest hline hlevels hstart hstops post hpost
  rw [List.forall_mem_append, List.forall_mem_cons, List.forall_mem_append,
    List.forall_mem_singleton] at hline
  obtain ⟨htokens, hopeningLine, hinside, hclosingLine⟩ := hline
  rw [List.append_assoc, bracketed_append] at hstart
  have hends : Stops .primary line state.braceDepth (opening :: (inside ++ closing :: rest)) :=
    stops_opening (.inr hopening) hopeningLine
  apply ih line levels context state _ htokens hlevels hstart hends _
  intro next hread
  have hopened := hread.advance (.of_kind hopening rfl) (by rw [hopening]; rfl) hopeningLine
  have hkind : closing.kind = Delimiter.paren.closing := hclosing
  have hsees := hread.sees (by rw [hopening]; rfl)
  rw [Level.resume, if_pos rfl, returns_iterate, postfixTurn, returns_bind, hsees.current,
    returns_bind, returns_previousLine hread.line, hopening]
  dsimp only
  rw [if_pos hopeningLine, returns_bind, hsees.advance, returns_bind]
  have hreads := ihArgs line levels context next.advance (closing :: rest) hinside hlevels
    (hopened.start_closing hargs.plain (plain_closing hkind) hstart.room) hopened.ahead
    hopened.line
  apply hreads.sequence (by simp) hkind hclosingLine
  intro last hlast
  rw [returns_pure]
  refine ⟨?_, hpost last (hopened.trans hlast)⟩
  rw [hread.ahead, hlast.ahead, List.length_cons, List.length_append, List.length_cons]
  omega

end

end Grammar
end SceneLang
