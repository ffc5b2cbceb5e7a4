import SceneLang.Proofs.Margins.Values

/-!
# Elements in pairs

Arguments, properties, heads and bodies of elements, and blocks of logic, are read to what
resembles each other.  Whether an item is a property or an element is told from the two tokens
behind its first word, which is no brace: so the same is seen on both sides.
-/

namespace SceneLang

/-! ## Configurations with the same sketch -/

section

variable {text : String → String} {config config' : TraitConfig} {value value' : Value}

theorem Resembles.push (h : Resembles text config config') (hvalue : Resembles text value value') :
    Resembles text (config.push value) (config'.push value') :=
  congrArg₂ TraitConfig.mk (Resembles.concat (TraitConfig.mk.inj h).1 hvalue)
    (TraitConfig.mk.inj h).2

theorem Resembles.insertEntry (h : Resembles text config config') (key : String)
    (hvalue : Resembles text value value') :
    Resembles text (config.insert key value) (config'.insert key value') :=
  congrArg₂ TraitConfig.mk (TraitConfig.mk.inj h).1
    (Resembles.insert (TraitConfig.mk.inj h).2 hvalue)

theorem Resembles.addEntry {entry entry' : ObjectEntry} (h : Resembles text config config')
    (hentry : Resembles text entry entry') :
    Resembles text (config.addEntry entry) (config'.addEntry entry') := by
  cases entry with
  | field key value =>
      cases entry' with
      | field key' value' =>
          obtain ⟨rfl, hvalue⟩ := ObjectEntry.field.inj hentry
          exact h.insertEntry key hvalue
      | spread => cases (show ObjectEntry.field _ _ = .spread _ from hentry)
  | spread value =>
      cases entry' with
      | field => cases (show ObjectEntry.spread _ = .field _ _ from hentry)
      | spread value' =>
          exact h.push (congrArg Value.spread (ObjectEntry.spread.inj hentry))

theorem Resembles.addEntries {entries entries' : List ObjectEntry}
    (h : Resembles text config config') (hentries : Resembles text entries entries') :
    Resembles text (entries.foldl TraitConfig.addEntry config)
      (entries'.foldl TraitConfig.addEntry config') := by
  induction entries generalizing entries' config config' with
  | nil =>
      cases entries' with
      | nil => exact h
      | cons => cases hentries
  | cons entry rest ih =>
      cases entries' with
      | nil => cases hentries
      | cons entry' rest' =>
          obtain ⟨hentry, hrest⟩ := List.cons.inj hentries
          have hrest' := ih (Resembles.addEntry h hentry) hrest
          exact hrest'

end

/-! ## Blocks of logic with the same sketch -/

section

variable {text : String → String}

theorem resembles_logicBlock {functions functions' : List LogicFunction}
    {handlers handlers' : List EventHandler} {values values' : Table Value}
    (hfunctions : Resembles text functions functions')
    (hhandlers : Resembles text handlers handlers') (hvalues : Resembles text values values') :
    Resembles text (LogicBlock.mk functions handlers values)
      (LogicBlock.mk functions' handlers' values') := by
  change LogicBlock.mk (Sketched.sketch text functions) (Sketched.sketch text handlers)
    (Sketched.sketch text values) = _
  rw [hfunctions, hhandlers, hvalues]
  rfl

theorem resembles_logicFunction (name : String) (params : List String) {body body' : String}
    (hbody : text body = text body') :
    Resembles text (LogicFunction.mk name params body) (LogicFunction.mk name params body') :=
  congrArg (LogicFunction.mk name params) hbody

theorem resembles_eventHandler (event : String) (params : List String) {body body' : String}
    (hbody : text body = text body') :
    Resembles text (EventHandler.mk event params body) (EventHandler.mk event params body') :=
  congrArg (EventHandler.mk event params) hbody

end

namespace Parser

variable {α β : Type} {margins : Margins}

/-! ## Arguments of directives -/

theorem pairs_argument : Pairs margins argument argument :=
  (pairs_valueOr pairs_recoverInList).bindBy fun _ _ hvalue =>
    (pairs_setValueFailed false).andThen fun _ => .pure hvalue

theorem Margins.offset_eq_iff {a a' b b' : Nat} (ha : margins.offset a a')
    (hb : margins.offset b b') : a = b ↔ a' = b' := by
  have hle := margins.order ha hb
  have hge := margins.order hb ha
  omega

theorem span_eq_iff {token other last last' : Token} (h : token.Twins margins.offset other)
    (hlast : last.Twins margins.offset last') : last.span = token.span ↔ last'.span = other.span := by
  have hstart := Margins.offset_eq_iff hlast.start h.start
  obtain ⟨width, hwidth, hwidth'⟩ := h.width
  obtain ⟨lastWidth, hlastWidth, hlastWidth'⟩ := hlast.width
  have hext (a b : Span) : a = b ↔ a.start = b.start ∧ a.stop = b.stop := by
    cases a
    cases b
    exact Iff.of_eq (Span.mk.injEq _ _ _ _)
  rw [hext, hext]
  omega

theorem pairs_argumentTurn {config config' : TraitConfig}
    (h : Resembles margins.text config config') :
    Pairs margins (argumentTurn config) (argumentTurn config') := by
  refine .current fun token other htwins => ?_
  rw [htwins.kind, htwins.text]
  split
  · refine PairsBy.at ?_ token other
    exact pairs_advance.andThen fun _ => .pure h.done
  · refine PairsBy.at ?_ token other
    exact (pairs_unexpected _).andThen fun _ => .pure h.done
  · refine PairsBy.at ?_ token other
    exact pairs_advance.andThen fun _ => .pure h.yield
  next hparen heof hcomma =>
    refine .peekKind fun next next' hnext => PairsBy.at ?_ token other
    have hnamed : ((other.kind = .identifier || other.kind = .string) && next.separatesKey) =
        ((other.kind = .identifier || other.kind = .string) && next'.separatesKey) := by
      by_cases hbrace : other.kind.isBrace = true
      · cases hkind : other.kind <;> rw [hkind] at hbrace <;> first | rfl | contradiction
      · rw [hnext (Bool.eq_false_iff.mpr hbrace)]
    refine .ite (by rw [hnamed]) (fun _ => ?_) fun _ => ?_
    · exact pairs_advance.andThen fun _ => pairs_advance.andThen fun _ =>
        pairs_argument.bindBy fun _ _ hvalue =>
          .pure (congrArg ForInStep.yield (h.insertEntry other.text hvalue))
    · refine pairs_argument.bindBy fun value value' hvalue =>
        .current fun last last' hlast => PairsBy.at ?_ last last'
      refine .ite (span_eq_iff htwins hlast) (fun _ => ?_) fun _ => ?_
      · exact .pure (congrArg ForInStep.done (h.push hvalue))
      · exact .pure (congrArg ForInStep.yield (h.push hvalue))

theorem pairs_arguments (line : Nat) : Pairs margins (arguments line) (arguments line) := by
  refine .current fun token other htwins => PairsBy.at ?_ token other
  refine .ite (by rw [htwins.kind, htwins.line]) (fun _ => ?_) fun _ => .pure rfl
  exact pairs_advance.andThen fun _ =>
    .iterate (.refl TraitConfig.empty) fun _ _ => pairs_argumentTurn

theorem pairs_textTurn (line : Nat) {config config' : TraitConfig}
    (h : Resembles margins.text config config') :
    Pairs margins (textTurn line config) (textTurn line config') := by
  refine .current fun token other htwins => PairsBy.at ?_ token other
  rw [htwins.kind, htwins.line, htwins.text]
  refine .ite Iff.rfl (fun _ => ?_) fun _ => .pure (congrArg ForInStep.done h)
  exact pairs_advance.andThen fun _ =>
    .pure (congrArg ForInStep.yield (h.push (.refl (Value.string other.text))))

theorem pairs_directiveConfig (allowBody : Bool) :
    Pairs margins (directiveConfig allowBody) (directiveConfig allowBody) := by
  refine pairs_previousLine.andThen fun line => (pairs_arguments line).bindBy fun _ _ h => ?_
  refine PairsBy.bindBy (.iterate h fun _ _ => pairs_textTurn line) fun config config' h => ?_
  refine .check fun found => .ite Iff.rfl (fun _ => ?_) fun _ => .pure h
  exact pairs_object.bindBy fun _ _ hentries => .pure (h.addEntries hentries)

/-! ## Properties and bodies -/

/-- What an element holds is read in pairs. -/
structure Held.Pairs (margins : Margins) (held held' : Held) : Prop where
  element : Parser.Pairs margins held.element held'.element
  directive (allowBody : Bool) :
    Parser.Pairs margins (held.directive allowBody) (held'.directive allowBody)
  conditional : Parser.Pairs margins held.conditional held'.conditional

variable {node node' : Node}

/-- The name of the trait that a directive adds to a node. -/
def traitName? : Directive → Option String
  | .trait name _ | .generic name _ => some name
  | _ => none

theorem traitName?_eq {directive directive' : Directive}
    (h : Resembles margins.text directive directive') :
    traitName? directive = traitName? directive' := by
  have hsketch (directive : Directive) :
      traitName? (Sketched.sketch margins.text directive) = traitName? directive := by
    cases directive with
    | conditional condition body elseBody => cases elseBody <;> rfl
    | _ => rfl
  rw [← hsketch directive, h, hsketch]

theorem attach_eq (node : Node) (placed : PlacedDirective) : attach node placed =
    (traitName? placed.directive).elim (pure ()) (fun name =>
      if node.hasTrait name then
        report (.warning .duplicateName placed.span placed.position
          s!"trait '@{name}' is declared more than once; the last declaration wins")
      else pure ()) >>= fun _ => pure (node.attach placed.directive) := by
  obtain ⟨directive, span, position⟩ := placed
  cases directive with
  | trait name config | generic name config =>
      unfold attach
      dsimp only [traitName?, Option.elim]
      split <;> rfl
  | _ => rfl

theorem pairs_attach {placed placed' : PlacedDirective} (h : Resembles margins.text node node')
    (hplaced : Resembles margins.text placed placed') :
    Pairs margins (attach node placed) (attach node' placed') := by
  have hdirective : Resembles margins.text placed.directive placed'.directive :=
    congrArg PlacedDirective.directive hplaced
  rw [attach_eq, attach_eq, traitName?_eq hdirective]
  refine PairsBy.andThen ?_ fun _ => .pure (h.attach hdirective)
  cases traitName? placed'.directive with
  | none => exact .pure rfl
  | some name =>
      refine .ite (by rw [h.hasTrait]) (fun _ => pairs_report ?_) fun _ => .pure rfl
      rfl

theorem pairs_attachDirective {held held' : Held} (hheld : held.Pairs margins held')
    (allowBody : Bool) (h : Resembles margins.text node node') :
    Pairs margins (attachDirective held allowBody node)
      (attachDirective held' allowBody node') := by
  refine (hheld.directive allowBody).bindBy fun found found' hfound => ?_
  cases found with
  | some placed =>
      cases found' with
      | some placed' => exact pairs_attach h (Option.some.inj hfound)
      | none => cases hfound
  | none =>
      cases found' with
      | some => cases hfound
      | none => exact .pure h

theorem pairs_close (h : Resembles margins.text node node') (start start' : Position) :
    Pairs margins (close node start) (close node' start') :=
  (pairs_locationFrom start start').bindBy fun loc loc' _ => .pure (h.with_loc loc loc')

theorem pairs_checkGeometry {key key' place place' : Token} (hkey : key.Twins margins.offset key')
    {value value' : Value} (hvalue : Resembles margins.text value value') :
    Pairs margins (checkGeometry key value place) (checkGeometry key' value' place') := by
  have hsketch (key : Token) (value : Value) (place : Token) : checkGeometry key value place =
      checkGeometry key (Sketched.sketch margins.text value) place := by
    cases value <;> rfl
  rw [hsketch, hsketch key', hvalue]
  generalize Sketched.sketch margins.text value' = value
  unfold checkGeometry
  rw [hkey.text]
  cases value with
  | string geometry =>
      refine .ite Iff.rfl (fun _ => pairs_report ?_) fun _ => .pure rfl
      rw [Diagnostic.unknownGeometry, Diagnostic.unknownGeometry,
        Diagnostic.isError_withCandidates, Diagnostic.isError_withCandidates]
      rfl
  | _ => exact .pure rfl

theorem pairs_checkProperty {key key' place place' : Token} (hkey : key.Twins margins.offset key')
    {value value' : Value} (hvalue : Resembles margins.text value value') :
    Pairs margins (checkProperty key value place) (checkProperty key' value' place') := by
  unfold checkProperty Diagnostic.misspelledProperty?
  rw [hkey.text]
  cases Vocabulary.correction? key'.text with
  | none => exact pairs_checkGeometry hkey hvalue
  | some correction =>
      refine PairsBy.andThen (pairs_report ?_) fun _ => pairs_checkGeometry hkey hvalue
      rfl

theorem pairs_property (h : Resembles margins.text node node') :
    Pairs margins (property node) (property node') := by
  refine .current fun key key' hkey => PairsBy.at (pairs_advance.andThen fun _ => ?_) key key'
  refine .currentKind fun token other _ => PairsBy.at ?_ token other
  have hrest : Pairs margins
      (do
        let place ← current
        let read ← valueOr synchronize
        checkProperty key read place
        return { node with properties := node.properties.insert key.text read })
      (do
        let place ← current
        let read ← valueOr synchronize
        checkProperty key' read place
        return { node' with properties := node'.properties.insert key'.text read }) := by
    refine .current fun place place' _ => PairsBy.at ?_ place place'
    refine (pairs_valueOr pairs_synchronize).bindBy fun read read' hread => ?_
    refine (pairs_checkProperty hkey hread).andThen fun _ => .pure ?_
    rw [hkey.text]
    exact h.with_properties (h.properties.insert hread)
  refine .ite Iff.rfl (fun _ => ?_) fun _ => ?_
  · exact pairs_advance.andThen fun _ => hrest
  · refine PairsBy.andThen (pairs_report ?_) fun _ => hrest
    rfl

/-- Does a word start a property, as far as the two tokens behind it tell? -/
def startsProperty (token next : Token) (second : TokenKind) : Bool :=
  if next.kind.separatesKey then true
  else if Vocabulary.isConstruct token.text then false
  else if next.kind = .string && second = .leftBrace then false
  else next.kind.startsValue && next.line = token.line

theorem returns_propertyAhead_of_visible {context : Context} {state : State}
    {token next second : Token} {rest rest' rest'' : List Token} {post : Bool → State → Prop}
    (htoken : state.visibleFrom 0 = token :: rest) (hnext : state.visibleFrom 1 = next :: rest')
    (hsecond : state.visibleFrom 2 = second :: rest'') :
    Returns propertyAhead context state post ↔
      post (startsProperty token next second.kind) state := by
  rw [propertyAhead, returns_bind, current, returns_peek_of_visible htoken, returns_bind,
    returns_peek_of_visible hnext, startsProperty]
  split
  · rw [returns_pure]
  split
  · rw [returns_pure]
  rw [returns_bind, returns_peekKind_of_visible hsecond]
  split <;> rw [returns_pure]

theorem pairs_propertyAhead {token other : Token} (hother : other.kind = .identifier) :
    PairsAt margins token other Eq propertyAhead propertyAhead := by
  rintro state twin hpaired rfl rfl post hpost
  obtain ⟨rest, rest', hvisible, hvisible', htwins⟩ := hpaired.exists_visible
  have hword : (twin.tokenAt 0).kind.isBrace = false := by
    rw [show twin.tokenAt 0 = twin.token from rfl, hother]
    rfl
  have hseen := hpaired.seen_succ hpaired.seen hword
  obtain ⟨next, _, next', _, hnext, hnext', hnexts⟩ := hseen.exists_cons
  obtain ⟨_, hsecond⟩ := exists_visible_succ hnext
  obtain ⟨_, hsecond'⟩ := exists_visible_succ hnext'
  rw [returns_propertyAhead_of_visible hvisible' hnext' hsecond'] at hpost
  rw [returns_propertyAhead_of_visible hvisible hnext hsecond]
  refine ⟨_, twin, hpost, ?_, hpaired, .refl _ _⟩
  -- What is behind a brace is not compared, and does not matter.
  have hopens : (next'.kind = .string && (state.tokenAt 2).kind = .leftBrace) =
      (next'.kind = .string && (twin.tokenAt 2).kind = .leftBrace) := by
    by_cases hbrace : next'.kind.isBrace = true
    · cases hkind : next'.kind <;> rw [hkind] at hbrace <;> first | rfl | contradiction
    · have hnothing : (twin.tokenAt 1).kind.isBrace = false := by
        rw [State.tokenAt, hnext', List.headD_cons]
        exact Bool.eq_false_iff.mpr hbrace
      obtain ⟨_, _, _, _, hcons, hcons', hseconds⟩ :=
        (hpaired.seen_succ hseen hnothing).exists_cons
      rw [hsecond] at hcons
      rw [hsecond'] at hcons'
      cases hcons
      cases hcons'
      rw [hseconds.kind]
  rw [startsProperty, startsProperty, hnexts.kind, hnexts.line, htwins.text, htwins.line, hopens]

section

variable {held held' : Held} (hheld : held.Pairs margins held')
include hheld

theorem pairs_bodyItem (h : Resembles margins.text node node') :
    Pairs margins (bodyItem held node) (bodyItem held' node') := by
  refine .currentKind fun token other htwins => ?_
  split
  · exact PairsBy.at (pairs_attachDirective hheld true h) token other
  · refine PairsBy.at ?_ token other
    exact pairs_advance.andThen fun _ => (pairs_use _).andThen fun _ =>
      (pairs_valueOr pairs_synchronize).bindBy fun _ _ hread =>
        .pure (h.with_spreads (h.spreads.concat hread))
  next hkind =>
    refine (pairs_propertyAhead hkind).bindBy fun ahead ahead' hahead => ?_
    refine .ite (by rw [hahead]) (fun _ => pairs_property h) fun _ => ?_
    exact hheld.element.bindBy fun _ _ hchild => .pure (h.with_children (h.children.concat hchild))
  next hat hspread hidentifier =>
    refine .peekKind fun next next' hnext => PairsBy.at ?_ token other
    have hkeyed : (other.kind = .string && next.separatesKey) =
        (other.kind = .string && next'.separatesKey) := by
      by_cases hbrace : other.kind.isBrace = true
      · cases hkind : other.kind <;> rw [hkind] at hbrace <;> first | rfl | contradiction
      · rw [hnext (Bool.eq_false_iff.mpr hbrace)]
    refine .ite (by rw [hkeyed]) (fun _ => pairs_property h) fun _ => ?_
    exact (pairs_unexpected _).andThen fun _ => pairs_synchronize.andThen fun _ => .pure h

theorem pairs_indentedItem (h : Resembles margins.text node node') :
    Pairs margins (indentedItem held node) (indentedItem held' node') := by
  refine .ifStalled (pairs_bodyItem hheld h) (fun _ _ h' => ?_) fun _ _ h' => .pure h'
  exact pairs_advance.andThen fun _ => .pure h'

theorem pairs_indentedTurn {found found' : Node × Nat} (h : Resembles margins.text found found') :
    Pairs margins (indentedTurn held found) (indentedTurn held' found') := by
  obtain ⟨node, further⟩ := found
  obtain ⟨node', further'⟩ := found'
  obtain ⟨hnode, hfurther⟩ := Prod.mk.inj h
  obtain rfl : further = further' := hfurther
  have hbeside {node node' : Node} (h : Resembles margins.text node node') (further : Nat) :
      Resembles margins.text (node, further) (node', further) :=
    congrArg (·, further) h
  refine .currentKind fun token other _ => PairsBy.at ?_ token other
  split
  · exact pairs_advance.andThen fun _ => .pure (hbeside hnode _).yield
  · exact pairs_advance.andThen fun _ => .pure (hbeside hnode _).yield
  · refine pairs_advance.andThen fun _ => ?_
    refine .ite Iff.rfl (fun _ => .pure (hbeside hnode _).done) fun _ => ?_
    exact (pairs_lower _).andThen fun _ => .pure (hbeside hnode _).yield
  · exact .pure (hbeside hnode _).done
  · exact (pairs_unexpected _).andThen fun _ => pairs_advance.andThen fun _ =>
      .pure (hbeside hnode _).yield
  · exact (pairs_indentedItem hheld hnode).bindBy fun _ _ h' => .pure (hbeside h' _).yield

theorem pairs_indentedBody (h : Resembles margins.text node node') :
    Pairs margins (indentedBody held node) (indentedBody held' node') := by
  have hstart : Resembles margins.text (node, 0) (node', 0) := congrArg (·, 0) h
  exact PairsBy.bindBy (.iterate hstart fun _ _ => pairs_indentedTurn hheld)
    fun _ _ h' => .pure (Prod.mk.inj h').1

end

/-! ## Heads of elements -/

theorem pairs_givenName (h : Resembles margins.text node node') :
    Pairs margins (givenName node) (givenName node') := by
  refine .current fun token other htwins => ?_
  have hnamed : Pairs margins (pure { node with name := some other.text })
      (pure { node' with name := some other.text }) :=
    .pure (h.with_name _)
  rw [htwins.kind, htwins.text]
  split
  · exact PairsBy.at (pairs_advance.andThen fun _ => hnamed) token other
  · refine PairsBy.at ?_ token other
    exact (pairs_reportUnterminated token other).andThen fun _ => pairs_advance.andThen fun _ =>
      hnamed
  next hkind =>
    refine .peekKind fun next next' hnext => PairsBy.at ?_ token other
    rw [hnext (by rw [hkind]; rfl), htwins.isWord]
    refine .ite Iff.rfl (fun _ => .pure h) fun _ => ?_
    exact pairs_advance.andThen fun _ => hnamed
  · exact PairsBy.at (.pure h) token other

theorem pairs_givenId (h : Resembles margins.text node node') (headLine : Nat) :
    Pairs margins (givenId node headLine) (givenId node' headLine) := by
  refine .current fun mark mark' hmark => PairsBy.at ?_ mark mark'
  refine .ite (by rw [hmark.kind, hmark.line]) (fun _ => ?_) fun _ => .pure h
  refine pairs_advance.andThen fun _ => .current fun id id' hid => PairsBy.at ?_ id id'
  rw [hid.kind, hid.text]
  refine .ite Iff.rfl (fun _ => ?_) fun _ => ?_
  · exact pairs_advance.andThen fun _ => .pure (h.with_id _)
  · exact (pairs_unexpected _).andThen fun _ => .pure h

theorem pairs_elementName (h : Resembles margins.text node node') (headLine : Nat) :
    Pairs margins (elementName node headLine) (elementName node' headLine) := by
  refine .current fun token other htwins => PairsBy.at ?_ token other
  refine .ite (by rw [htwins.line]) (fun _ => .pure h) fun _ => ?_
  exact (pairs_givenName h).bindBy fun _ _ h' => pairs_givenId h' headLine

/-- The type of an element. -/
def elementType? : NodeKind → Option String
  | .element type _ => some type
  | _ => none

theorem elementType?_eq {kind kind' : NodeKind} (h : Resembles margins.text kind kind') :
    elementType? kind = elementType? kind' := by
  have hsketch (kind : NodeKind) :
      elementType? (Sketched.sketch margins.text kind) = elementType? kind := by
    cases kind <;> rfl
  rw [← hsketch kind, h, hsketch]

theorem setTemplate_eq (node : Node) (token : Token) : setTemplate node token =
    (elementType? node.kind).elim
      (report (.error .unexpectedToken token.span token.position
        s!"'using' is only valid on elements, not on {node.kind.label}") >>= fun _ => pure node)
      fun type => pure { node with kind := .element type (some token.text) } := by
  unfold setTemplate
  cases node.kind <;> rfl

theorem pairs_setTemplate (h : Resembles margins.text node node') {token other : Token}
    (htwins : token.Twins margins.offset other) :
    Pairs margins (setTemplate node token) (setTemplate node' other) := by
  rw [setTemplate_eq, setTemplate_eq, elementType?_eq h.kind, htwins.text]
  cases elementType? node'.kind with
  | some type => exact .pure (h.with_kind (.refl _))
  | none =>
      refine PairsBy.andThen (pairs_report ?_) fun _ => .pure h
      rfl

theorem pairs_templateName (h : Resembles margins.text node node') :
    Pairs margins (templateName node) (templateName node') := by
  refine .current fun token other htwins => PairsBy.at ?_ token other
  rw [htwins.kind]
  split
  · exact pairs_advance.andThen fun _ => pairs_setTemplate h htwins
  · exact pairs_advance.andThen fun _ => pairs_setTemplate h htwins
  · exact (pairs_reportUnterminated token other).andThen fun _ => pairs_advance.andThen fun _ =>
      pairs_setTemplate h htwins
  · exact (pairs_unexpected _).andThen fun _ => .pure h

theorem pairs_skipHead (headLine : Nat) : Pairs margins (skipHead headLine) (skipHead headLine) := by
  refine pairs_skipUntil (.current fun token other htwins => PairsBy.at (.pure ?_) token other)
  rw [htwins.kind, htwins.line]

section

variable {held held' : Held} (hheld : held.Pairs margins held')
include hheld

theorem pairs_headTurn (headLine : Nat) (h : Resembles margins.text node node') :
    Pairs margins (headTurn held headLine node) (headTurn held' headLine node') := by
  refine .current fun token other htwins => ?_
  refine .ite (by rw [htwins.line]) (fun _ => PairsBy.at (.pure h.done) token other) fun _ => ?_
  rw [htwins.kind]
  split
  · exact PairsBy.at (.pure h.done) token other
  · exact PairsBy.at (.pure h.done) token other
  · exact PairsBy.at (.pure h.done) token other
  · exact PairsBy.at (.pure h.done) token other
  · exact PairsBy.at (.pure h.done) token other
  · exact PairsBy.at (.pure h.done) token other
  · exact PairsBy.at (.pure h.done) token other
  · exact PairsBy.at (.pure h.done) token other
  · refine PairsBy.at ?_ token other
    exact (pairs_attachDirective hheld false h).bindBy fun _ _ h' => .pure h'.yield
  next hkind =>
    refine .peekKind fun next next' hnext => PairsBy.at ?_ token other
    rw [hnext (by rw [hkind]; rfl)]
    refine .ite Iff.rfl (fun _ => ?_) fun _ => .pure h.done
    exact (pairs_property h).bindBy fun _ _ h' => .pure h'.yield
  · refine PairsBy.at ?_ token other
    exact (pairs_unexpected _).andThen fun _ => (pairs_skipHead headLine).andThen fun _ =>
      .pure h.done

theorem pairs_elementHead (h : Resembles margins.text node node') (headLine : Nat) :
    Pairs margins (elementHead held node headLine) (elementHead held' node' headLine) :=
  .iterate h fun _ _ => pairs_headTurn hheld headLine

end

theorem pairs_skipElement : Pairs margins skipElement skipElement := by
  refine PairsBy.andThen (pairs_skipUntil ?_) fun _ => ?_
  · refine .currentKind fun token other _ => PairsBy.at (.get fun state twin hdepth => .pure ?_) _ _
    rw [hdepth]
  · refine .check fun found => .ite Iff.rfl (fun _ => ?_) fun _ => .pure rfl
    exact pairs_skipBalanced.andThen fun _ => .pure rfl

/-! ## Elements -/

def isTemplate : NodeKind → Bool
  | .template _ => true
  | _ => false

theorem isTemplate_eq {kind kind' : NodeKind} (h : Resembles margins.text kind kind') :
    isTemplate kind = isTemplate kind' := by
  have hsketch (kind : NodeKind) :
      isTemplate (Sketched.sketch margins.text kind) = isTemplate kind := by
    cases kind <;> rfl
  rw [← hsketch kind, h, hsketch]

theorem templateParams_eq (node : Node) : templateParams node =
    if isTemplate node.kind then do
      if ← check .leftParen then return { node with kind := .template (← paramList) }
      else return node
    else pure node := by
  unfold templateParams
  cases node.kind <;> rfl

theorem pairs_templateParams (h : Resembles margins.text node node') :
    Pairs margins (templateParams node) (templateParams node') := by
  rw [templateParams_eq, templateParams_eq, isTemplate_eq h.kind]
  refine .ite Iff.rfl (fun _ => ?_) fun _ => .pure h
  refine .check fun found => .ite Iff.rfl (fun _ => ?_) fun _ => .pure h
  exact pairs_paramList.andThen fun params => .pure (h.with_kind (.refl (NodeKind.template params)))

theorem pairs_elementTemplate (h : Resembles margins.text node node') (headLine : Nat) :
    Pairs margins (elementTemplate node headLine) (elementTemplate node' headLine) := by
  refine .current fun mark mark' hmark => PairsBy.at ?_ mark mark'
  refine .ite (by rw [hmark.isWord, hmark.line]) (fun _ => ?_) fun _ => .pure h
  exact pairs_advance.andThen fun _ => pairs_templateName h

theorem pairs_refuseElement (h : Resembles margins.text node node') :
    Pairs margins (refuseElement node) (refuseElement node') :=
  pairs_skipElement.andThen fun _ => .pure h

section

variable {held held' : Held} (hheld : held.Pairs margins held')
include hheld

theorem pairs_elementBody (h : Resembles margins.text node node') :
    Pairs margins (elementBody held node) (elementBody held' node') := by
  refine .get fun state twin hdepth => .facing fun token other htwins => ?_
  rw [hdepth]
  refine .check (.peekKind fun next next' hnext => PairsBy.at ?_ token other)
  have hopens : (twin.braceDepth = 0 && decide (token.kind = .newline) && next = .indent) =
      (twin.braceDepth = 0 && decide (other.kind = .newline) && next' = .indent) := by
    rw [htwins.kind]
    by_cases hbrace : other.kind.isBrace = true
    · cases hkind : other.kind <;> rw [hkind] at hbrace <;> first | contradiction | simp
    · rw [hnext (Bool.eq_false_iff.mpr hbrace)]
  rw [hopens]
  refine .check fun found => .ite Iff.rfl (fun _ => ?_) fun _ => ?_
  · exact pairs_braced h fun _ _ h' => pairs_bodyItem hheld h'
  refine .ite Iff.rfl (fun _ => ?_) fun _ => .pure h
  exact pairs_advance.andThen fun _ => pairs_advance.andThen fun _ =>
    (pairs_use _).andThen fun _ => pairs_indentedBody hheld h

theorem pairs_elementRest (h : Resembles margins.text node node') (headLine : Nat) :
    Pairs margins (elementRest held node headLine) (elementRest held' node' headLine) :=
  (pairs_elementName h headLine).bindBy fun _ _ h => (pairs_templateParams h).bindBy fun _ _ h =>
    (pairs_elementTemplate h headLine).bindBy fun _ _ h =>
      (pairs_elementHead hheld h headLine).bindBy fun _ _ h => pairs_elementBody hheld h

theorem pairs_genericElement (kind : NodeKind) :
    Pairs margins (genericElement held kind) (genericElement held' kind) := by
  refine .current fun keyword keyword' hkeyword => PairsBy.at ?_ keyword keyword'
  rw [hkeyword.line]
  refine pairs_advance.andThen fun _ => ?_
  exact (pairs_deeper (pairs_refuseElement (.refl _)) (pairs_elementRest hheld (.refl _) _)).bindBy
    fun _ _ h => pairs_close h _ _

theorem pairs_exported : Pairs margins (exported held) (exported held') := by
  refine pairs_startPosition.bindBy fun start start' _ => pairs_advance.andThen fun _ => ?_
  refine (pairs_deeper (pairs_refuseElement (.refl _)) ?_).bindBy fun _ _ h => pairs_close h _ _
  exact hheld.element.bindBy fun _ _ h => .pure (h.with_exported true)

omit hheld in
theorem pairs_function : Pairs margins function function := by
  refine pairs_startPosition.bindBy fun start start' _ => pairs_advance.andThen fun _ => ?_
  refine (pairs_use _).andThen fun _ => (pairs_expectName _).andThen fun found => ?_
  cases found with
  | none => exact pairs_synchronize.andThen fun _ => pairs_close (.refl _) start start'
  | some name =>
      refine pairs_paramList.andThen fun params => pairs_blockText.bindBy fun body body' hbody => ?_
      have hkind : Resembles margins.text (NodeKind.function params body) (.function params body') :=
        congrArg (NodeKind.function params) hbody
      exact pairs_close (((Resembles.refl (Node.ofKind (.function params body) default)).with_kind
        hkind).with_name (some name)) start start'

/-! ## Blocks of logic -/

omit hheld in
theorem pairs_logicValue : Pairs margins logicValue logicValue :=
  pairs_valueOr pairs_synchronize

omit hheld in
theorem pairs_logicItem {token other : Token} (hother : other.kind = .identifier)
    {block block' : LogicBlock} (h : Resembles margins.text block block') :
    PairsAt margins token other (Resembles margins.text) (logicItem block) (logicItem block') := by
  obtain ⟨hfunctions, hhandlers, hvalues⟩ := LogicBlock.mk.inj h
  have hvalue (name : String) : Pairs margins
      (do return { block with values := block.values.insert name (← logicValue) })
      (do return { block' with values := block'.values.insert name (← logicValue) }) :=
    pairs_logicValue.bindBy fun _ _ hvalue =>
      .pure (resembles_logicBlock hfunctions hhandlers (Resembles.insert hvalues hvalue))
  have hfunction (name : String) (params : List String) {body body' : String}
      (hbody : Raw margins body body') : Resembles margins.text
        { block with functions := block.functions ++ [LogicFunction.mk name params body] }
        { block' with functions := block'.functions ++ [LogicFunction.mk name params body'] } :=
    resembles_logicBlock
      (Resembles.concat hfunctions (resembles_logicFunction name params hbody)) hhandlers hvalues
  have hhandler (name : String) (params : List String) {body body' : String}
      (hbody : Raw margins body body') : Resembles margins.text
        { block with handlers := block.handlers ++ [EventHandler.mk name params body] }
        { block' with handlers := block'.handlers ++ [EventHandler.mk name params body'] } :=
    resembles_logicBlock hfunctions
      (Resembles.concat hhandlers (resembles_eventHandler name params hbody)) hvalues
  rintro state twin hpaired rfl rfl
  obtain ⟨_, _, _, _, htwins⟩ := hpaired.exists_visible
  refine PairsAt.current ?_ hpaired rfl rfl
  rw [htwins.text]
  refine .peekKind fun next next' hnext => PairsBy.at ?_ state.token twin.token
  rw [hnext (by rw [hother]; rfl)]
  refine .ite Iff.rfl (fun _ => ?_) fun _ => .ite Iff.rfl (fun _ => ?_) fun _ => ?_
  · refine pairs_advance.andThen fun _ => (pairs_expectName _).andThen fun found => ?_
    cases found with
    | none => exact pairs_synchronize.andThen fun _ => .pure h
    | some name =>
        exact pairs_paramList.andThen fun params => pairs_blockText.bindBy fun _ _ hbody =>
          .pure (hfunction name params hbody)
  · refine pairs_advance.andThen fun _ => (pairs_expectName _).andThen fun found => ?_
    cases found with
    | none => exact pairs_synchronize.andThen fun _ => .pure h
    | some name =>
        refine .currentKind fun token other _ => PairsBy.at ?_ token other
        refine .ite Iff.rfl (fun _ => ?_) fun _ => ?_
        · exact pairs_advance.andThen fun _ => hvalue name
        · exact (pairs_unexpected _).andThen fun _ => hvalue name
  refine .ite Iff.rfl (fun _ => ?_) fun _ => .ite Iff.rfl (fun _ => ?_) fun _ => ?_
  · exact pairs_advance.andThen fun _ => pairs_advance.andThen fun _ => hvalue _
  · refine pairs_advance.andThen fun _ => pairs_paramList.andThen fun params => ?_
    refine pairs_blockText.bindBy fun body body' hbody => ?_
    exact .ite Iff.rfl (fun _ => .pure (hhandler _ params hbody)) fun _ =>
      .pure (hfunction _ params hbody)
  · exact (pairs_unexpected _).andThen fun _ => pairs_synchronize.andThen fun _ => .pure h

theorem pairs_logicTurn {found found' : Node × LogicBlock} (h : Resembles margins.text found found') :
    Pairs margins (logicTurn held found) (logicTurn held' found') := by
  obtain ⟨node, block⟩ := found
  obtain ⟨node', block'⟩ := found'
  obtain ⟨hnode, hblock⟩ := Prod.mk.inj h
  have hbeside {node node' : Node} {block block' : LogicBlock}
      (h : Resembles margins.text node node') (h' : Resembles margins.text block block') :
      Resembles margins.text (node, block) (node', block') :=
    congrArg₂ Prod.mk h h'
  refine .currentKind fun token other _ => ?_
  split
  next hkind =>
    exact (pairs_logicItem hkind hblock).bindBy fun _ _ h' => .pure (hbeside hnode h')
  · refine PairsBy.at ?_ token other
    exact (pairs_attachDirective hheld true hnode).bindBy fun _ _ h' => .pure (hbeside h' hblock)
  · refine PairsBy.at ?_ token other
    exact (pairs_unexpected _).andThen fun _ => pairs_synchronize.andThen fun _ =>
      .pure (hbeside hnode hblock)

theorem pairs_logicRest (h : Resembles margins.text node node') (headLine : Nat) :
    Pairs margins (logicRest held node headLine) (logicRest held' node' headLine) := by
  have hlogic {node node' : Node} {block block' : LogicBlock}
      (h : Resembles margins.text node node') (h' : Resembles margins.text block block') :
      Resembles margins.text { node with kind := .logic block }
        { node' with kind := .logic block' } :=
    h.with_kind (congrArg NodeKind.logic h')
  refine (pairs_elementName h headLine).bindBy fun node node' h => ?_
  refine .check fun found => .ite Iff.rfl (fun _ => ?_) fun _ => ?_
  · have hstart : Resembles margins.text (node, LogicBlock.empty) (node', LogicBlock.empty) :=
      congrArg (·, LogicBlock.empty) h
    exact PairsBy.bindBy (pairs_braced hstart fun _ _ h' => pairs_logicTurn hheld h')
      fun _ _ h' => .pure (hlogic (Prod.mk.inj h').1 (Prod.mk.inj h').2)
  · exact (pairs_unexpected _).andThen fun _ => pairs_synchronize.andThen fun _ =>
      .pure (hlogic h (.refl _))

theorem pairs_logicElement : Pairs margins (logicElement held) (logicElement held') := by
  refine .current fun keyword keyword' hkeyword => PairsBy.at ?_ keyword keyword'
  rw [hkeyword.line]
  refine pairs_advance.andThen fun _ => (pairs_use _).andThen fun _ => ?_
  exact (pairs_deeper (pairs_refuseElement (.refl _)) (pairs_logicRest hheld (.refl _) _)).bindBy
    fun _ _ h => pairs_close h _ _

end

end Parser
end SceneLang
