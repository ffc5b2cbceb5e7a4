import SceneLang.Proofs.Strict.Directives

/-!
# Documents of strict and lenient parses

A strict parse only rejects more.  What it accepts a lenient parse takes for the same document, and
whether it accepts a text or not it reads it just as a lenient parse does.
-/

namespace SceneLang
namespace Parser

variable {held : Held}

theorem blind_skipLayout : Blind skipLayout :=
  blind_skipUntil (blind_currentKind.andThen fun _ => blind_pure _)

theorem still_attachAll (node : Node) (placed : List PlacedDirective) :
    Still (attachAll node placed) := by
  unfold attachAll
  induction placed generalizing node with
  | nil => exact still_pure node
  | cons first rest ih =>
      rw [List.foldlM_cons]
      exact (still_attach node first).bind ih

theorem blind_attachAll (node : Node) (placed : List PlacedDirective) :
    Blind (attachAll node placed) := by
  unfold attachAll
  induction placed generalizing node with
  | nil => exact blind_pure node
  | cons first rest ih =>
      rw [List.foldlM_cons]
      exact (blind_attach node first).andThen ih

theorem paces_attachAll (node node' : Node) (placed placed' : List PlacedDirective) :
    Paces (node = node' ∧ placed = placed') Loosely (attachAll node placed)
      (attachAll node' placed') := by
  refine .of_still (still_attachAll _ _) (still_attachAll _ _) (blind_attachAll _ _) ?_
  rintro ⟨rfl, rfl⟩
  rfl

theorem blind_strayToken : Blind strayToken :=
  (blind_unexpected _).andThen fun _ => (blind_check _).andThen fun _ =>
    .ite (fun _ => blind_advance) fun _ => blind_synchronize

theorem paces_leadingTurn (hheld : held.KeepsPace) (placed placed' : List PlacedDirective) :
    Paces (placed = placed') (Paces.Turn Loosely) (leadingTurn held placed)
      (leadingTurn held placed') := by
  refine (blind_check _).andThen fun _ => .ite (fun _ => ?_) fun _ =>
    .pure (.done trivial) (congrArg ForInStep.done)
  refine ((hheld.directive true).of_imp fun _ => trivial).bind fun found found' _ => ?_
  refine blind_skipLayout.andThen fun _ => .pure (.yield trivial) ?_
  rintro ⟨rfl, rfl⟩
  rfl

theorem paces_leadingDirectives (hheld : held.KeepsPace) :
    Paces True Loosely (leadingDirectives held) (leadingDirectives held) := by
  have hloop : Paces (([] : List PlacedDirective) = []) Loosely (iterate [] (leadingTurn held))
      (iterate [] (leadingTurn held)) :=
    .iterate trivial fun placed placed' _ => paces_leadingTurn hheld placed placed'
  refine (hloop.of_imp fun _ => rfl).bind fun _ _ _ => .pure trivial ?_
  exact fun hsame => congrArg List.reverse hsame.2

theorem paces_topTurn (hheld : held.KeepsPace) (found found' : List Node × Node) :
    Paces (found = found') (Paces.Turn Loosely) (topTurn held found) (topTurn held found') := by
  obtain ⟨roots, loose⟩ := found
  obtain ⟨roots', loose'⟩ := found'
  refine blind_skipLayout.andThen fun _ => ?_
  refine ((paces_leadingDirectives hheld).of_imp fun _ => trivial).bind fun leading leading' _ => ?_
  have hattach : Paces ((roots, loose) = (roots', loose') ∧ leading = leading') Loosely
      (attachAll loose leading) (attachAll loose' leading') :=
    (paces_attachAll loose loose' leading leading').of_imp fun hsame =>
      ⟨(Prod.mk.inj hsame.1).2, hsame.2⟩
  refine blind_currentKind.andThen fun kind => ?_
  split
  · refine hattach.bind fun _ _ _ => .pure (.done trivial) ?_
    rintro ⟨⟨hfound, _⟩, rfl⟩
    rw [(Prod.mk.inj hfound).1]
  · refine (hheld.element.of_imp fun _ => trivial).bind fun _ _ _ => .pure (.yield trivial) ?_
    rintro ⟨⟨hfound, rfl⟩, rfl⟩
    rw [(Prod.mk.inj hfound).1, (Prod.mk.inj hfound).2]
  · refine hattach.bind fun _ _ _ => blind_strayToken.andThen fun _ => .pure (.yield trivial) ?_
    rintro ⟨⟨hfound, _⟩, rfl⟩
    rw [(Prod.mk.inj hfound).1]

/-- Put together what a text consists of, as `document` does. -/
def assemble (start : Position) (roots : List Node) (loose : Node) : Parser Node :=
  let alone := loose.directives.isEmpty && loose.traits.isEmpty
  match roots with
  | [] => close loose start
  | last :: _ =>
      let first := roots.getLastD last
      match roots, alone with
      | [root], true => return root
      | _, _ => return { loose with children := roots.reverse, loc := first.loc.merge last.loc }

theorem still_assemble (start : Position) (roots : List Node) (loose : Node) :
    Still (assemble start roots loose) := by
  unfold assemble
  cases roots with
  | nil => exact still_close _ _
  | cons last others =>
      dsimp only
      split
      · exact still_pure _
      · exact still_pure _

theorem blind_assemble (start : Position) (roots : List Node) (loose : Node) :
    Blind (assemble start roots loose) := by
  unfold assemble
  cases roots with
  | nil => exact blind_close _ _
  | cons last others =>
      dsimp only
      split
      · exact blind_pure _
      · exact blind_pure _

theorem paces_document : Paces True Loosely document document := by
  refine blind_startPosition.andThen fun start => .get fun state log => ?_
  have hloop : Paces ((([] : List Node), Node.fragment [] default) = ([], .fragment [] default))
      Loosely (topLevel (level (state.ahead.length + 1)) (.fragment [] default))
      (topLevel (level (state.ahead.length + 1)) (.fragment [] default)) :=
    .iterate trivial fun found found' _ => paces_topTurn (keepsPace_level _) found found'
  refine (hloop.of_imp fun _ => rfl).bind ?_
  rintro ⟨roots, loose⟩ ⟨roots', loose'⟩ -
  refine .of_still (still_assemble start roots loose) (still_assemble start roots' loose')
    (blind_assemble start roots loose) ?_
  rintro ⟨_, hfound⟩
  rw [(Prod.mk.inj hfound).1, (Prod.mk.inj hfound).2]

/-- The reports of a parse are clean if its log has no errors. -/
theorem clean_of_hasErrors {limits : Limits} {new : List Diagnostic}
    (h : ((Log.empty limits).pushAll new).hasErrors = false) : Clean new := by
  rw [Log.hasErrors_pushAll_empty, Bool.not_eq_false', List.isEmpty_iff,
    List.filter_eq_nil_iff] at h
  intro d hmem
  exact Bool.eq_false_iff.mpr (h d hmem)

/-- A strict run and a lenient run of a text come to states that differ in what is reported alone,
and to the same tree and reports if the strict one reports no error. -/
theorem runs_abreast (options : ParseOptions) (source : List Char) :
    ∃ root root' state new new',
      run (options.withStrict true) source (tokenize source) = .ok (root, state) ∧
      run (options.withStrict false) source (tokenize source) =
        .ok (root', state.withLog ((Log.empty options.limits).pushAll new')) ∧
      state.log = (Log.empty options.limits).pushAll new ∧
      (Clean new → root = root' ∧ new = new') := by
  have hended := ended_withEnd source (tokenize source)
  obtain ⟨root, state, hrun, -⟩ :
      Returns document ⟨source, options.withStrict true⟩
        (.start (options.withStrict true) (withEnd source (tokenize source))) fun _ _ => True :=
    (returns_document hended (Nat.zero_le _)).mono fun _ _ _ => trivial
  obtain ⟨fault, hfault, -⟩ | ⟨root, root', state, new, new', hstrict, hlenient, hlog, -, hsame⟩ :=
    (paces_document source options
      (.start (options.withStrict true) (withEnd source (tokenize source)))
      (.empty options.limits)).split
  · rw [hrun] at hfault
    contradiction
  · exact ⟨root, root', state, new, new', hstrict, hlenient, hlog, hsame trivial⟩

end Parser

namespace Document

open SceneLang.Parser

/-- What a strict parse accepts a lenient parse takes for the same document.  Whether or not it is
accepted, both read the same tokens, as a whole and in each element and directive, and note down the
same interpolations, imports and features. -/
theorem parse_strict (options : ParseOptions) (source : List Char) :
    ((parse (options.withStrict true) source).success = true →
      parse (options.withStrict false) source = parse (options.withStrict true) source) ∧
    (parse (options.withStrict false) source).expressions =
      (parse (options.withStrict true) source).expressions ∧
    (parse (options.withStrict false) source).imports =
      (parse (options.withStrict true) source).imports ∧
    (parse (options.withStrict false) source).features =
      (parse (options.withStrict true) source).features ∧
    (∃ root root' state log,
      run (options.withStrict true) source (tokenize source) = .ok (root, state) ∧
      run (options.withStrict false) source (tokenize source) = .ok (root', state.withLog log)) ∧
    ∀ levels, (level levels).KeepsPace := by
  obtain ⟨root, root', state, new, new', hstrict, hlenient, hlog, hsame⟩ :=
    runs_abreast options source
  have hdocument : parse (options.withStrict true) source = ofState root state := by
    rw [parse, ofTokens, hstrict]
  have hdocument' : parse (options.withStrict false) source =
      ofState root' (state.withLog ((Log.empty options.limits).pushAll new')) := by
    rw [parse, ofTokens, hlenient]
  rw [hdocument, hdocument']
  refine ⟨fun hsuccess => ?_, rfl, rfl, rfl, ⟨root, root', state, _, hstrict, hlenient⟩,
    keepsPace_level⟩
  have hclean : Clean new := by
    apply clean_of_hasErrors
    rw [← hlog]
    simpa [ofState] using hsuccess
  obtain ⟨rfl, rfl⟩ := hsame hclean
  rw [← hlog]
  rfl

end Document
end SceneLang
