import SceneLang.Proofs.Margins.Directives
import SceneLang.Proofs.Shift.Breaks

/-!
# Documents in pairs

Texts whose tokens differ only in layout that is hidden within braces come to documents that
agree in everything but places and reports: there is an error in both or in neither, and the
trees resemble each other.
-/

namespace SceneLang

/-- The two documents agree but for places, for what the reports say, and for texts that the map
does not tell apart. -/
structure Document.Alike (text : String → String) (document other : Document) : Prop where
  success : document.success = other.success
  root : document.root.sketch text = other.root.sketch text
  expressions : document.expressions = other.expressions
  imports : document.imports = other.imports
  features : document.features = other.features

theorem Document.Alike.symm {text : String → String} {document other : Document}
    (h : document.Alike text other) : other.Alike text document :=
  ⟨h.success.symm, h.root.symm, h.expressions.symm, h.imports.symm, h.features.symm⟩

/-! ## Leading directives with the same sketch -/

section

variable {text : String → String}

theorem sketch_addLeading (found : Table TraitConfig × List Directive) (directive : Directive) :
    Sketched.sketch text (Parser.addLeading found directive) =
      Parser.addLeading (Sketched.sketch text found) (Sketched.sketch text directive) := by
  have htrait (name : String) (config : TraitConfig) :
      Sketched.sketch text (found.1.insertIfNew name config, found.2) =
        (Table.insertIfNew name (Sketched.sketch text config) (Sketched.sketch text found.1),
          Sketched.sketch text found.2) :=
    congrArg (·, Sketched.sketch text found.2) (sketch_insertIfNew text name config found.1)
  have hother (directive : Directive) :
      Sketched.sketch text (found.1, found.2 ++ [directive]) =
        (Sketched.sketch text found.1,
          Sketched.sketch text found.2 ++ [Sketched.sketch text directive]) :=
    congrArg (Sketched.sketch text found.1, ·) (sketch_append text found.2 [directive])
  cases directive with
  | trait name config | generic name config => exact htrait name config
  | conditional condition body elseBody =>
      cases elseBody <;> exact hother (.conditional condition body _)
  | lifecycle | state | bindings | loop | whileLoop | imports | setting | topic => exact hother _

theorem Resembles.attachLeading {node other : Node} {leading leading' : List PlacedDirective}
    (h : Resembles text node other) (hleading : Resembles text leading leading') :
    Resembles text (node.attachLeading (leading.map (·.directive)))
      (other.attachLeading (leading'.map (·.directive))) := by
  have hfold {found found' : Table TraitConfig × List Directive}
      (hfound : Resembles text found found') :
      Resembles text ((leading.map (·.directive)).foldl Parser.addLeading found)
        ((leading'.map (·.directive)).foldl Parser.addLeading found') := by
    induction leading generalizing leading' found found' with
    | nil =>
        cases leading' with
        | nil => exact hfound
        | cons => cases hleading
    | cons first rest ih =>
        cases leading' with
        | nil => cases hleading
        | cons first' rest' =>
            obtain ⟨hfirst, hrest⟩ := List.cons.inj hleading
            have hdirective : Resembles text first.directive first'.directive :=
              congrArg PlacedDirective.directive hfirst
            have hadded : Resembles text (Parser.addLeading found first.directive)
                (Parser.addLeading found' first'.directive) := by
              rw [Resembles, sketch_addLeading, sketch_addLeading, hfound, hdirective]
            exact ih hrest hadded
  have hstart : Resembles text (node.traits, ([] : List Directive)) (other.traits, []) :=
    congrArg (·, ([] : List Directive)) h.traits
  obtain ⟨htraits, hdirectives⟩ := Prod.mk.inj (hfold hstart)
  rw [Parser.attachLeading_eq, Parser.attachLeading_eq]
  exact (h.with_traits htraits).with_directives (Resembles.append hdirectives h.directives)

end

namespace Parser

variable {margins : Margins}

theorem pairs_skipLayout : Pairs margins skipLayout skipLayout :=
  pairs_skipUntil (.currentKind fun token other _ => PairsBy.at (.pure rfl) token other)

theorem pairs_attachAll {loose loose' : Node} (h : Resembles margins.text loose loose')
    {placed placed' : List PlacedDirective} (hplaced : Resembles margins.text placed placed') :
    Pairs margins (attachAll loose placed) (attachAll loose' placed') := by
  unfold attachAll
  induction placed generalizing placed' loose loose' with
  | nil =>
      cases placed' with
      | nil => exact .pure h
      | cons => cases hplaced
  | cons first rest ih =>
      cases placed' with
      | nil => cases hplaced
      | cons first' rest' =>
          obtain ⟨hfirst, hrest⟩ := List.cons.inj hplaced
          rw [List.foldlM_cons, List.foldlM_cons]
          exact (pairs_attach h hfirst).bindBy fun _ _ h' => ih h' hrest

theorem pairs_strayToken : Pairs margins strayToken strayToken :=
  (pairs_unexpected _).andThen fun _ => .check fun _ =>
    .ite Iff.rfl (fun _ => pairs_advance) fun _ => pairs_synchronize

section

variable {held held' : Held} (hheld : held.Pairs margins held')
include hheld

theorem pairs_leadingTurn {placed placed' : List PlacedDirective}
    (h : Resembles margins.text placed placed') :
    Pairs margins (leadingTurn held placed) (leadingTurn held' placed') := by
  refine .check fun found => .ite Iff.rfl (fun _ => ?_) fun _ => .pure h.done
  refine (hheld.directive true).bindBy fun found found' hfound => pairs_skipLayout.andThen fun _ => ?_
  refine .pure (Resembles.yield ?_)
  cases found with
  | none =>
      cases found' with
      | none => exact h
      | some => cases hfound
  | some directive =>
      cases found' with
      | none => cases hfound
      | some directive' => exact .cons (Option.some.inj hfound) h

theorem pairs_leadingDirectives :
    Pairs margins (leadingDirectives held) (leadingDirectives held') :=
  PairsBy.bindBy (.iterate (.refl []) fun _ _ => pairs_leadingTurn hheld) fun _ _ h =>
    .pure (Resembles.reverse h)

theorem pairs_topTurn {found found' : List Node × Node} (h : Resembles margins.text found found') :
    Pairs margins (topTurn held found) (topTurn held' found') := by
  obtain ⟨roots, loose⟩ := found
  obtain ⟨roots', loose'⟩ := found'
  obtain ⟨hroots, hloose⟩ := Prod.mk.inj h
  have hbeside {roots roots' : List Node} {loose loose' : Node}
      (h : Resembles margins.text roots roots') (h' : Resembles margins.text loose loose') :
      Resembles margins.text (roots, loose) (roots', loose') :=
    congrArg₂ Prod.mk h h'
  refine pairs_skipLayout.andThen fun _ =>
    (pairs_leadingDirectives hheld).bindBy fun leading leading' hleading => ?_
  refine .currentKind fun token other _ => PairsBy.at ?_ token other
  split
  · exact (pairs_attachAll hloose hleading).bindBy fun _ _ h' => .pure (hbeside hroots h').done
  · exact hheld.element.bindBy fun _ _ hnode =>
      .pure (hbeside (.cons (hnode.attachLeading hleading) hroots) hloose).yield
  · exact (pairs_attachAll hloose hleading).bindBy fun _ _ h' => pairs_strayToken.andThen fun _ =>
      .pure (hbeside hroots h').yield

theorem pairs_topLevel {loose loose' : Node} (h : Resembles margins.text loose loose') :
    Pairs margins (topLevel held loose) (topLevel held' loose') :=
  .iterate (congrArg (([] : List Node), ·) h) fun _ _ => pairs_topTurn hheld

end

theorem pairs_gather (start start' : Position) {roots roots' : List Node}
    (hroots : Resembles margins.text roots roots') {loose loose' : Node}
    (h : Resembles margins.text loose loose') :
    Pairs margins (gather start roots loose) (gather start' roots' loose') := by
  have hfragment (loc loc' : Location) : Pairs margins
      (pure { loose with children := roots.reverse, loc := loc })
      (pure { loose' with children := roots'.reverse, loc := loc' }) :=
    .pure ((h.with_children (Resembles.reverse hroots)).with_loc loc loc')
  match roots, roots', hroots with
  | [], [], _ => exact pairs_close h start start'
  | [root], [root'], hroots =>
      unfold gather
      rw [h.directives.isEmpty, h.traits.isEmpty]
      cases loose'.directives.isEmpty && loose'.traits.isEmpty with
      | true => exact .pure (List.cons.inj hroots).1
      | false => exact hfragment _ _
  | _ :: _ :: _, _ :: _ :: _, _ => exact hfragment _ _
  | [], _ :: _, hroots => cases hroots
  | _ :: _, [], hroots => cases hroots
  | [_], _ :: _ :: _, hroots => cases (List.cons.inj hroots).2
  | _ :: _ :: _, [_], hroots => cases (List.cons.inj hroots).2

/-- The parse of the longer list of tokens pairs with the parse of the shorter one. -/
theorem couples_document {state twin : State} (hpaired : Paired margins state twin)
    (hended : Ended state.ahead) (hended' : Ended twin.ahead)
    (hlength : twin.ahead.length ≤ state.ahead.length) :
    Couples margins (Resembles margins.text) document document state twin := by
  intro post hpost
  rw [returns_document_iff hended'] at hpost
  rw [returns_document_iff hended]
  obtain ⟨more, hmore⟩ := Nat.exists_eq_add_of_le (Nat.succ_le_succ hlength)
  have hlevel : (level (twin.ahead.length + 1 + more)).Pairs margins
      (level (twin.ahead.length + 1)) := pairs_level more (twin.ahead.length + 1)
  have htop := pairs_topLevel hlevel (.refl (Node.fragment [] default))
  rw [← hmore] at htop
  apply (htop hpaired hpost).mono
  rintro ⟨roots, loose⟩ next ⟨⟨roots', loose'⟩, next', hnext, hfound, hpaired', hstep⟩
  obtain ⟨hroots, hloose⟩ := Prod.mk.inj hfound
  apply (pairs_gather _ _ hroots hloose hpaired' hnext).mono
  rintro root last ⟨root', last', hlast, hroot, hpaired'', hstep'⟩
  exact ⟨root', last', hlast, hroot, hpaired'', hstep.trans hstep'⟩

end Parser

open SceneLang.Parser

theorem Parser.Paired.start {margins : Margins} {behind : Bool} {tokens twins : List Token}
    (hwoven : Woven margins.offset behind 0 tokens twins) :
    Paired margins (.start margins.options tokens) (.start margins.options twins) where
  ahead := ⟨behind, hwoven⟩
  previous := .inl ⟨rfl, rfl⟩
  braceDepth := rfl
  nesting := rfl
  valueFailed := rfl
  hasErrors := rfl
  expressions := rfl
  imports := rfl
  features := rfl

/-- Of two texts whose tokens are woven the longer one parses like the other. -/
theorem Document.alike_of_length_le {margins : Margins} {behind : Bool}
    (hwoven : Woven margins.offset behind 0 (tokenize margins.here) (tokenize margins.there))
    (hlength : (tokenize margins.there).length ≤ (tokenize margins.here).length) :
    (parse margins.options margins.here).Alike margins.text
      (parse margins.options margins.there) := by
  have hended := ended_tokenize margins.here
  have hended' := ended_tokenize margins.there
  have hdocument : Returns document ⟨margins.there, margins.options⟩
      (.start margins.options (tokenize margins.there)) fun _ _ => True :=
    (returns_document hended' (Nat.zero_le _)).mono fun _ _ _ => trivial
  obtain ⟨root', next', hrun', -⟩ := hdocument
  have hsame : Returns document ⟨margins.there, margins.options⟩
      (.start margins.options (tokenize margins.there))
      fun value next => value = root' ∧ next = next' := ⟨root', next', hrun', rfl, rfl⟩
  obtain ⟨root, next, hrun, _, _, ⟨hvalue, hlast⟩, hroot, hpaired, -⟩ :=
    couples_document (Paired.start hwoven) hended hended' hlength hsame
  rw [hvalue] at hroot
  rw [hlast] at hpaired
  have hparse : Parser.run margins.options margins.here (tokenize margins.here) =
      .ok (root, next) := by
    rw [Parser.run, Parser.withEnd_tokenize]
    exact hrun
  have hparse' : Parser.run margins.options margins.there (tokenize margins.there) =
      .ok (root', next') := by
    rw [Parser.run, Parser.withEnd_tokenize]
    exact hrun'
  rw [parse, parse, ofTokens, ofTokens, hparse, hparse']
  exact {
    success := congrArg not hpaired.hasErrors
    root := hroot
    expressions := hpaired.expressions
    imports := hpaired.imports
    features := congrArg Feature.inOrder hpaired.features }

/-- Texts whose tokens are woven parse alike. -/
theorem Document.alike_of_woven {margins : Margins} {behind : Bool}
    (hwoven : Woven margins.offset behind 0 (tokenize margins.here) (tokenize margins.there)) :
    (parse margins.options margins.here).Alike margins.text
      (parse margins.options margins.there) := by
  obtain hlength | hlength := Nat.le_total (tokenize margins.there).length
    (tokenize margins.here).length
  · exact alike_of_length_le hwoven hlength
  · have hflipped : Woven margins.symm.offset behind 0 (tokenize margins.symm.here)
        (tokenize margins.symm.there) := hwoven.symm
    exact (alike_of_length_le hflipped hlength).symm

end SceneLang
