import SceneLang.Proofs.Margins.Machines

/-!
# Directives in pairs

Directives, and what they hold, come to what resembles each other.  Conditions are kept as they
are written, so they compare as texts that are cut out; whether `@else` follows is seen alike,
since line breaks that can be seen stand on both sides.
-/

namespace SceneLang

/-! ## Directives with the same sketch -/

section

variable {text : String → String} {body body' : List Node} {condition condition' : String}

theorem resembles_loop (form : LoopForm) (item : String) (hcondition : text condition = text condition')
    (hbody : Resembles text body body') :
    Resembles text (Directive.loop form item condition body)
      (.loop form item condition' body') := by
  change Directive.loop form item (text condition) (Node.sketchAll text body) = _
  rw [Node.sketchAll_eq, hbody, ← Node.sketchAll_eq, hcondition]
  rfl

theorem resembles_whileLoop (hcondition : text condition = text condition')
    (hbody : Resembles text body body') :
    Resembles text (Directive.whileLoop condition body) (.whileLoop condition' body') := by
  change Directive.whileLoop (text condition) (Node.sketchAll text body) = _
  rw [Node.sketchAll_eq, hbody, ← Node.sketchAll_eq, hcondition]
  rfl

theorem resembles_conditional (hcondition : text condition = text condition')
    (hbody : Resembles text body body') :
    Resembles text (Directive.conditional condition body none)
      (.conditional condition' body' none) := by
  change Directive.conditional (text condition) (Node.sketchAll text body) none = _
  rw [Node.sketchAll_eq, hbody, ← Node.sketchAll_eq, hcondition]
  rfl

theorem resembles_conditional_some (hcondition : text condition = text condition')
    (hbody : Resembles text body body') {branch branch' : List Node}
    (hbranch : Resembles text branch branch') :
    Resembles text (Directive.conditional condition body (some branch))
      (.conditional condition' body' (some branch')) := by
  change Directive.conditional (text condition) (Node.sketchAll text body)
    (some (Node.sketchAll text branch)) = _
  rw [Node.sketchAll_eq, Node.sketchAll_eq, hbody, hbranch, ← Node.sketchAll_eq,
    ← Node.sketchAll_eq, hcondition]
  rfl

/-- The subject of a configuration is a text in quotes, which is compared as it is. -/
theorem Resembles.subject {config config' : TraitConfig} (h : Resembles text config config') :
    config.subject? = config'.subject? := by
  have hsketch (config : TraitConfig) :
      (Sketched.sketch text config).subject? = config.subject? := by
    obtain ⟨args, table⟩ := config
    match args with
    | [] => rfl
    | value :: rest => cases value <;> rfl
  rw [← hsketch config, h, hsketch]

end

namespace Parser

variable {margins : Margins}

/-! ## Conditions and bodies -/

theorem pairs_skipCondition : Pairs margins skipCondition skipCondition :=
  pairs_skipUntil (.currentKind fun token other _ => PairsBy.at (.pure rfl) token other)

theorem pairs_conditionText : PairsBy margins (Raw margins) conditionText conditionText := by
  refine .current fun token other htwins => PairsBy.at ?_ token other
  refine (pairs_valueOr pairs_skipCondition).bindBy fun _ _ _ => ?_
  refine (pairs_setValueFailed false).andThen fun _ => pairs_previousSpan.bindBy fun _ _ hspan => ?_
  exact (pairs_sliceBetween htwins.start hspan.2).bindBy fun _ _ htext => .pure htext

theorem pairs_loopVariable : Pairs margins loopVariable loopVariable := by
  refine .current fun token other htwins => PairsBy.at ?_ token other
  rw [htwins.kind, htwins.text]
  refine .ite Iff.rfl (fun _ => ?_) fun _ => ?_
  · exact pairs_advance.andThen fun _ => .pure rfl
  · exact (pairs_unexpected _).andThen fun _ => .pure rfl

section

variable {held held' : Held} (hheld : held.Pairs margins held')
include hheld

theorem pairs_controlItem {nodes nodes' : List Node} (h : Resembles margins.text nodes nodes') :
    Pairs margins (controlItem held nodes) (controlItem held' nodes') := by
  refine pairs_startPosition.bindBy fun start start' _ => ?_
  refine (pairs_bodyItem hheld (.refl (Node.fragment [] default))).bindBy fun item item' hitem => ?_
  have hkept : Pairs margins
      (do
        if 1 < item.count || !(item.properties.isEmpty && item.spreads.isEmpty &&
            item.traits.isEmpty) then
          return (← close item start) :: nodes
        else return nodes)
      (do
        if 1 < item'.count || !(item'.properties.isEmpty && item'.spreads.isEmpty &&
            item'.traits.isEmpty) then
          return (← close item' start') :: nodes'
        else return nodes') := by
    rw [hitem.count, hitem.properties.isEmpty, hitem.spreads.isEmpty, hitem.traits.isEmpty]
    refine .ite Iff.rfl (fun _ => ?_) fun _ => .pure h
    exact (pairs_close hitem start start').bindBy fun _ _ hnode => .pure (.cons hnode h)
  have hchildren := hitem.children
  revert hkept
  rw [hitem.properties.isEmpty, hitem.spreads.isEmpty, hitem.traits.isEmpty,
    hitem.directives.isEmpty]
  dsimp only
  generalize item.children = children at hchildren
  generalize item'.children = children' at hchildren
  intro hkept
  match children, children', hchildren with
  | [], [], _ => exact hkept
  | [child], [child'], hchildren =>
      cases item'.properties.isEmpty && item'.spreads.isEmpty && item'.traits.isEmpty &&
          item'.directives.isEmpty with
      | true => exact .pure (Resembles.cons (List.cons.inj hchildren).1 h)
      | false => exact hkept
  | _ :: _ :: _, _ :: _ :: _, _ => exact hkept
  | [], _ :: _, hchildren => cases hchildren
  | _ :: _, [], hchildren => cases hchildren
  | [_], _ :: _ :: _, hchildren => cases (List.cons.inj hchildren).2
  | _ :: _ :: _, [_], hchildren => cases (List.cons.inj hchildren).2

theorem pairs_controlBody : Pairs margins (controlBody held) (controlBody held') :=
  (pairs_braced (S := Resembles margins.text) (.refl []) fun _ _ h =>
    pairs_controlItem hheld h).bindBy fun _ _ h => .pure (Resembles.reverse h)

/-! ## Control flow -/

theorem pairs_loop (form : LoopForm) : Pairs margins (loop held form) (loop held' form) := by
  refine (pairs_use _).andThen fun _ => pairs_loopVariable.andThen fun item => ?_
  refine .current fun token other htwins => PairsBy.at ?_ token other
  have hrest : Pairs margins
      (do
        let iterable ← conditionText
        return Directive.loop form item iterable (← controlBody held))
      (do
        let iterable ← conditionText
        return Directive.loop form item iterable (← controlBody held')) :=
    pairs_conditionText.bindBy fun _ _ hcondition => (pairs_controlBody hheld).bindBy fun _ _ hbody =>
      .pure (resembles_loop form item hcondition hbody)
  rw [htwins.isWord, htwins.isWord]
  refine .ite Iff.rfl (fun _ => ?_) fun _ => ?_
  · exact pairs_advance.andThen fun _ => hrest
  · exact (pairs_unexpected _).andThen fun _ => hrest

omit hheld in
theorem pairs_elseAhead : Pairs margins elseAhead elseAhead := by
  intro state twin hpaired post hpost
  rw [elseAhead, returns_bind, returns_get] at hpost ⊢
  have hbreaks := hpaired.seen.dropBreaks
  obtain ⟨mark, rest, mark', rest', hmark, hmark', hmarks⟩ := hbreaks.exists_cons
  rw [State.behindBreaks, hmark]
  rw [State.behindBreaks, hmark'] at hpost
  rw [hmark, hmark'] at hbreaks
  dsimp only at hpost ⊢
  rw [← hpaired.braceDepth] at hpost
  have hne (mark : Token) (rest : List Token) :
      ∃ word others, visible state.braceDepth (behind (mark :: rest)) = word :: others := by
    refine List.exists_cons_of_ne_nil (visible_ne_nil ?_)
    cases rest <;> exact List.cons_ne_nil _ _
  obtain ⟨word, others, hword⟩ := hne mark rest
  obtain ⟨word', others', hword'⟩ := hne mark' rest'
  rw [hword]
  rw [hword'] at hpost
  rw [returns_pure] at hpost ⊢
  refine ⟨_, twin, hpost, ?_, hpaired, .refl _ _⟩
  by_cases hat : mark'.kind = .at
  · have hbehind := hbreaks.behind (by rw [hat]; rfl)
    rw [hword, hword'] at hbehind
    obtain ⟨_, _, _, _, hcons, hcons', hwords⟩ := hbehind.exists_cons
    cases hcons
    cases hcons'
    rw [hmarks.kind, hwords.isWord]
  · rw [hmarks.kind, decide_eq_false hat, Bool.false_and, Bool.false_and]

omit hheld in
theorem pairs_skipNewlines : Pairs margins skipNewlines skipNewlines :=
  pairs_skipUntil (.check fun _ => .pure rfl)

theorem pairs_elseBranch (start start' : Position) :
    Pairs margins (elseBranch held start) (elseBranch held' start') := by
  have hholder {holder holder' : Node} (h : Resembles margins.text holder holder') :
      Pairs margins (do return [← close holder start]) (do return [← close holder' start']) :=
    (pairs_close h start start').bindBy fun _ _ h => .pure (.cons h (.refl []))
  refine .current fun token other htwins => .peek fun next next' hnext => PairsBy.at ?_ _ _
  have hchain : (decide (other.kind = .at) && next.isWord "if") =
      (decide (other.kind = .at) && next'.isWord "if") := by
    by_cases hat : other.kind = .at
    · rw [(hnext (by rw [hat]; rfl)).isWord]
    · rw [decide_eq_false hat, Bool.false_and, Bool.false_and]
  rw [htwins.kind, htwins.isWord, hchain]
  refine .ite Iff.rfl (fun _ => ?_) fun _ => .ite Iff.rfl (fun _ => ?_) fun _ =>
    pairs_controlBody hheld
  · exact (pairs_attachDirective hheld true (.refl _)).bindBy fun _ _ h => hholder h
  · exact pairs_advance.andThen fun _ => hheld.conditional.bindBy fun _ _ hdirective =>
      hholder (Resembles.attach (.refl _) hdirective)

theorem pairs_conditionalWith :
    Pairs margins (conditionalWith held) (conditionalWith held') := by
  refine (pairs_use _).andThen fun _ => pairs_conditionText.bindBy fun _ _ hcondition => ?_
  refine (pairs_controlBody hheld).bindBy fun body body' hbody => pairs_elseAhead.andThen fun found => ?_
  refine .ite Iff.rfl (fun _ => ?_) fun _ => .pure (resembles_conditional hcondition hbody)
  refine pairs_skipNewlines.andThen fun _ => pairs_startPosition.bindBy fun start start' _ => ?_
  refine pairs_advance.andThen fun _ => pairs_advance.andThen fun _ => ?_
  exact (pairs_elseBranch hheld start start').bindBy fun _ _ hbranch =>
    .pure (resembles_conditional_some hcondition hbody hbranch)

end

/-! ## Imports -/

theorem pairs_importSource : Pairs margins importSource importSource := by
  refine .current fun token other htwins => PairsBy.at ?_ token other
  rw [htwins.isWord]
  refine .ite Iff.rfl (fun _ => ?_) fun _ => ?_
  · refine pairs_advance.andThen fun _ => .current fun path path' hpath => PairsBy.at ?_ path path'
    rw [hpath.kind, hpath.text]
    refine .ite Iff.rfl (fun _ => ?_) fun _ => ?_
    · exact pairs_advance.andThen fun _ => .pure rfl
    · exact (pairs_unexpected _).andThen fun _ => .pure rfl
  · exact (pairs_unexpected _).andThen fun _ => .pure rfl

theorem pairs_importAlias : Pairs margins importAlias importAlias := by
  refine .current fun token other htwins => PairsBy.at ?_ token other
  rw [htwins.isWord]
  refine .ite Iff.rfl (fun _ => ?_) fun _ => .pure rfl
  exact pairs_advance.andThen fun _ => pairs_expectName _

theorem pairs_importName (names : List ImportName) :
    Pairs margins (importName names) (importName names) := by
  refine .current fun token other htwins => PairsBy.at ?_ token other
  rw [htwins.kind, htwins.text]
  refine .ite Iff.rfl (fun _ => ?_) fun _ => ?_
  · exact pairs_advance.andThen fun _ => pairs_importAlias.andThen fun _ => .pure rfl
  · exact (pairs_unexpected _).andThen fun _ => pairs_advance.andThen fun _ => .pure rfl

theorem pairs_importDecl : Pairs margins importDecl importDecl := by
  refine (pairs_use _).andThen fun _ => .current fun token other htwins => PairsBy.at ?_ token other
  rw [htwins.kind, htwins.text]
  split
  · exact pairs_advance.andThen fun _ => pairs_importAlias.andThen fun _ => .pure rfl
  · have hnames : Pairs margins (braced [] importName) (braced [] importName) :=
      pairs_braced (.refl []) fun names _ h => h.eq ▸ pairs_importName names
    exact hnames.andThen fun names => pairs_importSource.andThen fun path => .pure rfl
  · exact pairs_advance.andThen fun _ => pairs_importSource.andThen fun path => .pure rfl
  · exact (pairs_unexpected _).andThen fun _ => .pure rfl

theorem pairs_importDirective : Pairs margins importDirective importDirective := by
  refine pairs_importDecl.andThen fun found => ?_
  cases found with
  | none => exact .pure rfl
  | some decl =>
      intro state twin hpaired post hpost
      dsimp only at hpost ⊢
      rw [returns_bind, returns_modify, returns_pure] at hpost ⊢
      refine ⟨_, _, hpost, rfl, { hpaired with imports := ?_ }, .inl ⟨rfl, rfl⟩⟩
      dsimp only
      rw [hpaired.imports]

/-! ## Directives -/

theorem pairs_reportUnknown {name name' : Token} (hname : name.Twins margins.offset name') :
    Pairs margins (reportUnknown name) (reportUnknown name') := by
  refine .read ?_
  dsimp only
  rw [hname.text]
  have herror {c : Prop} [Decidable c] (note : Diagnostic → Diagnostic)
      (hnote : ∀ d, (note d).isError = d.isError) :
      (note (if c then
          Diagnostic.unknownTrait margins.options.strict name'.text name.span name.position
        else
          Diagnostic.unknownDirective margins.options.strict name'.text name.span
            name.position)).isError =
      (note (if c then
          Diagnostic.unknownTrait margins.options.strict name'.text name'.span name'.position
        else
          Diagnostic.unknownDirective margins.options.strict name'.text name'.span
            name'.position)).isError := by
    rw [hnote, hnote]
    split
    · rw [Diagnostic.unknownTrait, Diagnostic.unknownTrait, Diagnostic.isError_withCandidates,
        Diagnostic.isError_withCandidates]
      rfl
    · rw [Diagnostic.unknownDirective, Diagnostic.unknownDirective,
        Diagnostic.isError_withCandidates, Diagnostic.isError_withCandidates]
      rfl
  refine .ite Iff.rfl (fun _ => pairs_report ?_) fun _ =>
    .ite Iff.rfl (fun _ => pairs_report ?_) fun _ => pairs_report ?_
  · exact herror (·.withNote _) fun _ => rfl
  · exact herror (·.withNote _) fun _ => rfl
  · exact herror id fun _ => rfl

theorem pairs_traitDirective {name name' : Token} (hname : name.Twins margins.offset name')
    (allowBody : Bool) :
    Pairs margins (traitDirective name allowBody) (traitDirective name' allowBody) := by
  refine .read ?_
  dsimp only
  rw [hname.text]
  refine (pairs_directiveConfig allowBody).bindBy fun config config' hconfig => ?_
  refine .ite Iff.rfl (fun _ => ?_) fun _ => ?_
  · exact (pairs_use _).andThen fun _ =>
      .pure (congrArg (fun config => some (Directive.trait name'.text config)) hconfig)
  · refine (pairs_reportUnknown hname).andThen fun _ => ?_
    cases margins.options.strict with
    | true => exact .pure rfl
    | false =>
        exact .pure (congrArg (fun config => some (Directive.generic name'.text config)) hconfig)

theorem pairs_lifecycle (hook : String) : Pairs margins (lifecycle hook) (lifecycle hook) := by
  refine pairs_paramList.andThen fun params => .check fun found => ?_
  refine .ite Iff.rfl (fun _ => ?_) fun _ => .pure rfl
  exact pairs_blockText.bindBy fun _ _ hbody =>
    .pure (congrArg (Directive.lifecycle hook params) hbody)

section

variable {held held' : Held} (hheld : held.Pairs margins held')
include hheld

theorem pairs_directiveNamed {name name' : Token} (hname : name.Twins margins.offset name')
    (span span' : Span) (position position' : Position) (allowBody : Bool) :
    Pairs margins (directiveNamed held name span position allowBody)
      (directiveNamed held' name' span' position' allowBody) := by
  unfold directiveNamed
  rw [hname.text]
  refine .ite Iff.rfl (fun _ => ?_) fun _ => .ite Iff.rfl (fun _ => ?_) fun _ =>
    .ite Iff.rfl (fun _ => ?_) fun _ => .ite Iff.rfl (fun _ => ?_) fun _ =>
    .ite Iff.rfl (fun _ => ?_) fun _ => .read ?_
  · exact (pairs_loop hheld .plain).bindBy fun _ _ h => .pure (congrArg some h)
  · exact (pairs_loop hheld .each).bindBy fun _ _ h => .pure (congrArg some h)
  · exact (pairs_use _).andThen fun _ => pairs_conditionText.bindBy fun _ _ hcondition =>
      (pairs_controlBody hheld).bindBy fun _ _ hbody =>
        .pure (congrArg some (resembles_whileLoop hcondition hbody))
  · exact (pairs_conditionalWith hheld).bindBy fun _ _ h => .pure (congrArg some h)
  · refine PairsBy.andThen (pairs_report ?_) fun _ => .check fun found => ?_
    · rfl
    refine .ite Iff.rfl (fun _ => ?_) fun _ => .pure rfl
    exact pairs_skipBalanced.andThen fun _ => .pure rfl
  refine .ite Iff.rfl (fun _ => pairs_importDirective) fun _ =>
    .ite Iff.rfl (fun _ => ?_) fun _ => .ite Iff.rfl (fun _ => ?_) fun _ => ?_
  · exact (pairs_directiveConfig true).bindBy fun _ _ h =>
      .pure (congrArg (fun config => some (Directive.state config)) (TraitConfig.mk.inj h).2)
  · exact (pairs_directiveConfig true).bindBy fun _ _ h =>
      .pure (congrArg (fun config => some (Directive.bindings config)) (TraitConfig.mk.inj h).2)
  split
  · exact (pairs_directiveConfig allowBody).bindBy fun _ _ h =>
      .pure (congrArg (fun config => some (Directive.setting _ config)) h)
  split
  · refine (pairs_directiveConfig allowBody).bindBy fun _ _ h => .pure ?_
    rw [h.subject]
    exact congrArg (fun config => some (Directive.topic _ _ config)) h
  refine .ite Iff.rfl (fun _ => ?_) fun _ => pairs_traitDirective hname allowBody
  exact (pairs_lifecycle _).bindBy fun _ _ h => .pure (congrArg some h)

theorem pairs_directiveWith (allowBody : Bool) :
    Pairs margins (directiveWith held allowBody) (directiveWith held' allowBody) := by
  refine .current fun mark mark' _ => PairsBy.at ?_ mark mark'
  refine pairs_advance.andThen fun _ => .current fun name name' hname => PairsBy.at ?_ name name'
  refine .ite (by rw [hname.kind]) (fun _ => ?_) fun _ => ?_
  · refine pairs_advance.andThen fun _ => ?_
    refine (pairs_directiveNamed hheld hname _ _ _ _ allowBody).bindBy fun found found' hfound => .pure ?_
    cases found with
    | none =>
        cases found' with
        | none => rfl
        | some => cases hfound
    | some directive =>
        cases found' with
        | none => cases hfound
        | some directive' =>
            exact congrArg (fun directive => some (PlacedDirective.mk directive default default))
              (Option.some.inj hfound)
  · exact (pairs_unexpected _).andThen fun _ => .pure rfl

end

/-- What a level reads, a level with more levels below reads too. -/
theorem pairs_level (more levels : Nat) : (level (levels + more)).Pairs margins (level levels) := by
  induction levels with
  | zero => exact ⟨.throw _ _, fun _ => .throw _ _, .throw _ _⟩
  | succ levels ih =>
      rw [Nat.add_right_comm]
      exact ⟨pairs_elementWith ih, pairs_directiveWith ih, pairs_conditionalWith ih⟩

end Parser
end SceneLang
