import SceneLang.Proofs.Depth.Directives
import SceneLang.Proofs.Parser.Documents
import SceneLang.Proofs.Shift.Documents

/-!
# How deep trees are

Counted through the children, no tree is deeper than the limit and one level more for the
fragment around several elements, whatever the text is.  The bodies of directives take no level:
counted through these as well, there is no such bound.
-/

namespace SceneLang
namespace Parser

variable {bound depth : Nat} {past state : State}

/-! ## Directives in front of elements -/

theorem mem_foldl_addLeading {found : Table TraitConfig × List Directive}
    {leading : List Directive} {directive : Directive}
    (hmem : directive ∈ (leading.foldl addLeading found).2) :
    directive ∈ found.2 ∨ directive ∈ leading := by
  induction leading generalizing found with
  | nil => exact .inl hmem
  | cons first rest ih =>
      obtain hfirst | hrest := ih hmem
      · unfold addLeading at hfirst
        split at hfirst
        · exact .inl hfirst
        · exact .inl hfirst
        · obtain hfound | hlast := List.mem_append.mp hfirst
          · exact .inl hfound
          · exact .inr (List.mem_singleton.mp hlast ▸ List.mem_cons_self)
      · exact .inr (List.mem_cons_of_mem first hrest)

/-- With the directives in front of it an element is as near as they and it are. -/
theorem near_attachLeading {node : Node} {leading : List Directive} (hdepth : depth ≤ maxNesting)
    (hnode : NearNode depth node state)
    (hleading : ∀ directive ∈ leading, NearDirective depth directive state) :
    NearNode depth (node.attachLeading leading) state := by
  have hparts : ∀ height ∈ (fun own => node.height own 0) ::
      leading.map (fun directive own => directive.height own 0), Near depth height state := by
    rw [List.forall_mem_cons, List.forall_mem_map]
    exact ⟨hnode, hleading⟩
  refine near_of_parts hdepth hparts fun own n _ hheights => ?_
  rw [List.forall_mem_cons, List.forall_mem_map] at hheights
  obtain ⟨hown, hchildren, hdirectives⟩ := Node.height_le.mp hheights.1
  rw [attachLeading_eq, Node.height_le]
  refine ⟨hown, hchildren, fun directive hmem => ?_⟩
  obtain hmem | hmem := List.mem_append.mp hmem
  · exact hheights.2 directive ((mem_foldl_addLeading hmem).resolve_left List.not_mem_nil)
  · exact hdirectives directive hmem

/-! ## The top level -/

/-- The elements of a text, and the fragment for the directives that stand alone. -/
structure NearTop (found : List Node × Node) (state : State) : Prop where
  roots : NearNodes 0 found.1 state
  loose : Directed 0 (.fragment [] default) found.2 state

theorem lasting_directed {node : Node} : Lasting (Directed depth node) :=
  fun _ _ _ hreaches h => ⟨h.kind, h.children, fun directive hmem =>
    (h.directives directive hmem).imp_right (·.later hreaches)⟩

theorem lasting_nearTop : Lasting NearTop :=
  fun found state next hreaches h => ⟨lasting_nearNodes found.1 state next hreaches h.roots,
    lasting_directed found.2 state next hreaches h.loose⟩

def NearPlaced (depth : Nat) (placed : List PlacedDirective) (state : State) : Prop :=
  ∀ one ∈ placed, NearDirective depth one.directive state

theorem lasting_nearPlaced : Lasting (NearPlaced depth) :=
  fun _ _ _ hreaches h one hmem => (h one hmem).later hreaches

theorem makes_attachAll {start node : Node} {placed : List PlacedDirective}
    (hnode : Directed depth start node past) (hplaced : NearPlaced depth placed past) :
    Makes bound depth past (attachAll node placed) (Directed depth start) := by
  unfold attachAll
  induction placed generalizing node past with
  | nil => exact lasting_directed.makes hnode
  | cons first rest ih =>
      rw [List.foldlM_cons]
      apply (makes_attach (hplaced first List.mem_cons_self)).bind
      intro value now hnow hvalue
      have hnode : Directed depth start node now := lasting_directed node past now hnow hnode
      have hplaced : NearPlaced depth (first :: rest) now :=
        lasting_nearPlaced (first :: rest) past now hnow hplaced
      apply ih
      · exact ⟨hvalue.kind.trans hnode.kind, hvalue.children.trans hnode.children,
          fun directive hmem => (hvalue.directives directive hmem).elim
            (hnode.directives directive) .inr⟩
      · exact fun one hmem => hplaced one (List.mem_cons_of_mem first hmem)

section

variable {held : Held} (hheld : NearHeld bound held)
include hheld

theorem makes_leadingDirectives :
    Makes bound depth past (leadingDirectives held) (NearPlaced depth) := by
  have hloop : Makes bound depth past (iterate [] (leadingTurn held)) (NearPlaced depth) := by
    apply Makes.iterate lasting_nearPlaced (List.forall_mem_nil _)
    intro placed now _ hplaced
    have hturned : Lasting (Turned (NearPlaced depth) (NearPlaced depth)) :=
      lasting_turned lasting_nearPlaced lasting_nearPlaced
    apply (resting_check .at).steady.before
    intro _
    refine .ite (fun _ => ?_) fun _ => hturned.makes hplaced
    apply (hheld.directive depth now true).bind
    intro found next hnext hfound
    have hplaced : NearPlaced depth placed next :=
      lasting_nearPlaced placed now next hnext hplaced
    apply steady_skipLayout.before
    intro _
    apply hturned.makes
    intro one hmem
    obtain hmem | hmem := List.mem_append.mp hmem
    · exact hfound one (Option.mem_toList.mp hmem)
    · exact hplaced one hmem
  apply hloop.bind
  intro placed now _ hplaced
  exact lasting_nearPlaced.makes fun one hmem => hplaced one (List.mem_reverse.mp hmem)

theorem makes_topTurn {found : List Node × Node} (hfound : NearTop found past) :
    Makes bound 0 past (topTurn held found) (Turned NearTop NearTop) := by
  obtain ⟨roots, loose⟩ := found
  have hturned : Lasting (Turned NearTop NearTop) := lasting_turned lasting_nearTop lasting_nearTop
  apply steady_skipLayout.before
  intro _
  apply (makes_leadingDirectives hheld).bind
  intro leading now hnow hleading
  obtain ⟨hroots, hloose⟩ : NearTop (roots, loose) now := lasting_nearTop _ past now hnow hfound
  have hattach : Makes bound 0 now (attachAll loose leading)
      (Directed 0 (.fragment [] default)) :=
    makes_attachAll hloose hleading
  apply resting_currentKind.steady.before
  intro kind
  split
  · apply hattach.bind
    intro value next hnext hvalue
    exact hturned.makes ⟨lasting_nearNodes roots now next hnext hroots, hvalue⟩
  · apply (hheld.element 0 now).bind
    intro node next hnext hnode
    obtain ⟨hroots, hloose⟩ : NearTop (roots, loose) next :=
      lasting_nearTop _ now next hnext ⟨hroots, hloose⟩
    have hleading : NearPlaced 0 leading next := lasting_nearPlaced leading now next hnext hleading
    refine hturned.makes ⟨List.forall_mem_cons.mpr ⟨?_, hroots⟩, hloose⟩
    exact near_attachLeading (Nat.zero_le _) hnode (List.forall_mem_map.mpr hleading)
  · apply hattach.bind
    intro value next hnext hvalue
    apply steady_strayToken.before
    intro _
    exact hturned.makes ⟨lasting_nearNodes roots now next hnext hroots, hvalue⟩

theorem makes_topLevel {loose : Node} (hloose : loose = .fragment [] default) :
    Makes bound 0 past (topLevel held loose) NearTop := by
  subst hloose
  exact .iterate lasting_nearTop ⟨List.forall_mem_nil _, .refl⟩ fun _ _ _ hfound =>
    makes_topTurn hheld hfound

end

/-! ## Whole texts -/

/-- The levels of a tree, with one more for the fragment around several elements. -/
structure NearRoot (root : Node) (state : State) : Prop where
  bare : root.height (fun _ => 0) 0 ≤ maxNesting + 1
  room : state.log.Reports .nestingTooDeep ∨ root.height NodeKind.room 0 ≤ maxNesting + 1

theorem lasting_nearRoot : Lasting NearRoot :=
  fun _ state next hreaches h =>
    ⟨h.bare, h.room.imp_left (lasting_reports .nestingTooDeep () state next hreaches)⟩

theorem NearNode.root {root : Node} (h : NearNode 0 root state) : NearRoot root state :=
  ⟨Nat.le_succ_of_le h.bare, h.room.imp_right Nat.le_succ_of_le⟩

theorem NearTop.root {found : List Node × Node} {root : Node} (h : NearTop found state)
    (hkind : root.kind = found.2.kind) (hchildren : ∀ child ∈ root.children, child ∈ found.1)
    (hdirectives : root.directives = found.2.directives) : NearRoot root state := by
  have hnear (directive : Directive) (hmem : directive ∈ root.directives) :
      NearDirective 0 directive state :=
    (h.loose.directives directive (hdirectives ▸ hmem)).resolve_left List.not_mem_nil
  have hroot : root.kind = .fragment := hkind.trans h.loose.kind
  constructor
  · rw [Node.height_le]
    refine ⟨Nat.zero_le _, fun child hmem => ?_, fun directive hmem => ?_⟩
    · exact Nat.succ_le_succ (h.roots child (hchildren child hmem)).bare
    · exact Nat.le_succ_of_le (hnear directive hmem).bare
  · by_cases hreports : state.log.Reports .nestingTooDeep
    · exact .inl hreports
    rw [Node.height_le, hroot]
    refine .inr ⟨Nat.zero_le _, fun child hmem => ?_, fun directive hmem => ?_⟩
    · exact Nat.succ_le_succ ((h.roots child (hchildren child hmem)).room.resolve_left hreports)
    · exact Nat.le_succ_of_le ((hnear directive hmem).room.resolve_left hreports)

theorem makes_document : Makes bound 0 past document NearRoot := by
  apply resting_startPosition.steady.before
  intro start
  apply resting_get.steady.before
  intro now
  apply (makes_topLevel (nearHeld_level _) rfl).bind
  rintro ⟨roots, loose⟩ next - hfound
  have hloose : NearNode 0 loose next :=
    near_of_fragment (Nat.zero_le _) hfound.loose.kind hfound.loose.children
      fun directive hmem =>
        (hfound.loose.directives directive hmem).resolve_left List.not_mem_nil
  dsimp only
  split
  next => exact (makes_close start hloose).mono fun _ _ _ hroot => hroot.root
  next last rest =>
    split
    next root hroots _ =>
      cases hroots
      exact lasting_nearRoot.makes (hfound.roots last List.mem_cons_self).root
    next =>
      apply lasting_nearRoot.makes
      exact hfound.root rfl (fun child hmem => List.mem_reverse.mp hmem) rfl

end Parser

namespace Document

/-- Counted through the children, no node of a tree is more than one level deeper than the limit.
What would be deeper is cut off: if all nodes that may have a body have room for it within the
same levels, nothing was, and otherwise an error says so, unless the errors kept are as many as
may be. -/
theorem parse_height_le (options : ParseOptions) (source : List Char) :
    (Document.parse options source).root.height (fun _ => 0) 0 ≤ maxNesting + 1 ∧
      ((Document.parse options source).root.height NodeKind.room 0 ≤ maxNesting + 1 ∨
        (∃ d ∈ (Document.parse options source).errors, d.code = .nestingTooDeep) ∨
          (Document.parse options source).errors.length = options.limits.maxErrors) := by
  obtain ⟨root, state, hrun, hkeeps, hparse⟩ := exists_run options source
  have hended := Parser.ended_withEnd source (tokenize source)
  have hsound : state.log.Sound options.limits :=
    hkeeps.reaches.log_sound (Log.sound_empty options.limits)
  have hroot : Parser.NearRoot root state :=
    (Parser.makes_document ⟨source, options⟩ _ ⟨hended, Nat.le_refl _, rfl, Nat.zero_le _⟩ .refl
      root state hrun).2.2
  rw [hparse]
  refine ⟨hroot.bare, ?_⟩
  obtain (hdropped | herror) | hroom := hroot.room
  · exact .inr (.inr (hsound.full hdropped))
  · exact .inr (.inl herror)
  · exact .inl hroom

/-- Conditionals inside each other, with a property in the innermost one. -/
def nestedConditionals (count : Nat) : List Char :=
  (List.replicate count "@if a \x7b ".toList).flatten ++ "x: 1 ".toList ++
    List.replicate count '}'

/-- Where the nodes in the bodies of directives count as lying one level below, a text without
any error can have a deeper tree. -/
theorem not_height_le_of_bodies : ¬∀ (options : ParseOptions) (source : List Char),
    (Document.parse options source).success = true →
      (Document.parse options source).root.height (fun _ => 0) 1 ≤ maxNesting + 1 := by
  intro hbound
  have hdeep := hbound .default (nestedConditionals 130)
  revert hdeep
  decide +kernel

end Document

end SceneLang
