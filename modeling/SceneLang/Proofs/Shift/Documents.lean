import SceneLang.Proofs.Shift.Directives
import SceneLang.Proofs.Parser.Documents

/-!
# Elements of a text further down

The elements of a text are read to the same elements further down, whatever elements were read
in front of them.  What holds the directives that stand alone may be another node, as long as
directives are attached to it in like ways.
-/

namespace SceneLang
namespace Parser

open Movable (move)

variable {α : Type} {bond : Bond} {i j : Stage} {shift : Shift}

theorem FollowsBy.weaken {R : α → α → Prop} {p q : Parser α}
    (h : FollowsBy bond i .within R p q) : FollowsBy bond i j R p q := by
  intro context other state back halike post hpost
  apply (h halike hpost).mono
  rintro value next ⟨value', next', hnext, hvalue, halike'⟩
  exact ⟨value', next', hnext, hvalue, halike'.of_within⟩

/-! ## Layout -/

theorem returns_currentKind_of_visible {context : Context} {state : State} {token : Token}
    {rest : List Token} {post : TokenKind → State → Prop}
    (hvisible : state.visibleFrom 0 = token :: rest) :
    Returns currentKind context state post ↔ post token.kind state := by
  simp only [currentKind, current, peek, returns_bind, returns_get, hvisible, returns_pure]

theorem returns_skipLayout_of_plain {context : Context} {state : State} {token : Token}
    {rest : List Token} {post : Unit → State → Prop}
    (hvisible : state.visibleFrom 0 = token :: rest) (hplain : token.kind.isLayout = false) :
    Returns skipLayout context state post ↔ post () state := by
  rw [skipLayout, skipUntil, returns_iterate, skipTurn, returns_bind, returns_bind,
    returns_currentKind_of_visible hvisible, returns_pure, hplain]
  exact returns_pure

theorem follows_skipLayout : Follows bond i i skipLayout skipLayout := by
  have hwithin : Follows bond .within .within skipLayout skipLayout :=
    follows_skipUntil (follows_currentKind.andThen fun _ => .pure rfl)
  intro context other state back halike post hpost
  obtain hknown | ⟨_, token, rest, hvisible, hplain, _⟩ := halike.previous
  · exact hwithin.weaken { halike with previous := .inl hknown } hpost
  · have hmoved := halike.visibleFrom 0
    rw [hvisible] at hmoved
    rw [returns_skipLayout_of_plain hvisible hplain] at hpost
    rw [returns_skipLayout_of_plain hmoved hplain]
    exact ⟨(), back, hpost, rfl, halike⟩

/-! ## Directives in front of elements -/

section

variable {held held' : Held} (hheld : held.Follows bond held')
include hheld

theorem follows_leadingTurn (placed : List PlacedDirective) :
    Follows bond .opening .opening (leadingTurn held (move bond.shift placed))
      (leadingTurn held' placed) := by
  refine (follows_check _).andThen fun found => .ite Iff.rfl (fun _ => ?_) fun _ => .pure rfl
  refine (hheld.directive _ true).bind fun found => follows_skipLayout.andThen fun _ => ?_
  refine FollowsBy.weaken (.pure ?_)
  cases found <;> rfl

theorem follows_leadingDirectives :
    Follows bond .opening .opening (leadingDirectives held) (leadingDirectives held') :=
  FollowsBy.bind (.iterate rfl (follows_leadingTurn hheld)) fun placed =>
    .pure (move_reverse bond.shift placed).symm

end

/-- Directives are attached to two nodes in like ways. -/
def Attaching (bond : Bond) (L : Node → Node → Prop) : Prop :=
  ∀ (i : Stage) (loose loose' : Node) (placed : PlacedDirective), L loose loose' →
    FollowsBy bond i i L (attach loose (move bond.shift placed)) (attach loose' placed)

theorem follows_attachAll {L : Node → Node → Prop} (hattach : Attaching bond L)
    {loose loose' : Node} (h : L loose loose') (placed : List PlacedDirective) :
    FollowsBy bond i i L (attachAll loose (move bond.shift placed)) (attachAll loose' placed) := by
  unfold attachAll
  induction placed generalizing loose loose' with
  | nil => exact .pure h
  | cons first rest ih =>
      change FollowsBy bond i i L
        (List.foldlM attach loose (move bond.shift first :: move bond.shift rest))
        (List.foldlM attach loose' (first :: rest))
      rw [List.foldlM_cons, List.foldlM_cons]
      exact (hattach i loose loose' first h).bindBy fun _ _ h' => ih h'

/-! ## The top level -/

theorem follows_skipStray :
    Follows bond .opening .within (do if ← check .rightBrace then advance else synchronize)
      (do if ← check .rightBrace then advance else synchronize) := by
  have hwithin : Follows bond .within .within
      (do if ← check .rightBrace then advance else synchronize)
      (do if ← check .rightBrace then advance else synchronize) :=
    (follows_check _).andThen fun _ =>
      .ite Iff.rfl (fun _ => follows_advance) fun _ => follows_synchronize
  intro context other state back halike post hpost
  obtain hknown | ⟨_, token, rest, hvisible, _, heof⟩ := halike.previous
  · exact hwithin { halike with previous := .inl hknown } hpost
  have hmoved := halike.visibleFrom 0
  rw [hvisible] at hmoved
  have hmoved : state.visibleFrom 0 = move bond.shift token :: move bond.shift rest := hmoved
  rw [returns_bind, check, returns_bind, returns_currentKind_of_visible hvisible,
    returns_pure] at hpost
  rw [returns_bind, check, returns_bind, returns_currentKind_of_visible hmoved, returns_pure,
    kind_move]
  by_cases hbrace : token.kind = .rightBrace
  · rw [if_pos (decide_eq_true hbrace)] at hpost ⊢
    exact follows_advance halike hpost
  · have hends : token.kind.endsBlock = false := by
      unfold TokenKind.endsBlock
      split
      · contradiction
      · contradiction
      · rfl
    have hskip : Follows bond .opening .within
        (do
          let _ ← skipBalanced
          skipUntil atSafePlace)
        (do
          let _ ← skipBalanced
          skipUntil atSafePlace) :=
      follows_skipBalanced.andThen fun _ => follows_skipUntil follows_atSafePlace
    rw [if_neg (by rwa [decide_eq_true_eq])] at hpost ⊢
    rw [synchronize, returns_bind, returns_currentKind_of_visible hvisible, hends] at hpost
    rw [synchronize, returns_bind, returns_currentKind_of_visible hmoved, kind_move, hends]
    exact hskip halike hpost

theorem follows_strayToken : Follows bond .opening .within strayToken strayToken :=
  (follows_unexpected _).andThen fun _ => follows_skipStray

/-- The elements read, in reverse, are those read further down, in front of others. -/
def Rooted (shift : Shift) (before : List Node) (L : Node → Node → Prop)
    (found found' : List Node × Node) : Prop :=
  found.1 = move shift found'.1 ++ before ∧ L found.2 found'.2

/-- Add a directive written before an element to what is known of them. -/
def addLeading (found : Table TraitConfig × List Directive) (directive : Directive) :
    Table TraitConfig × List Directive :=
  match directive with
  | .trait name config | .generic name config => (found.1.insertIfNew name config, found.2)
  | directive => (found.1, found.2 ++ [directive])

theorem attachLeading_eq (node : Node) (leading : List Directive) :
    node.attachLeading leading =
      { node with
        traits := (leading.foldl addLeading (node.traits, [])).1
        directives := (leading.foldl addLeading (node.traits, [])).2 ++ node.directives } :=
  rfl

theorem move_addLeading (found : Table TraitConfig × List Directive) (directive : Directive) :
    addLeading (move shift found) (move shift directive) =
      move shift (addLeading found directive) := by
  have htrait (name : String) (config : TraitConfig) :
      (Table.insertIfNew name (move shift config) (move shift found.1), move shift found.2) =
        move shift (found.1.insertIfNew name config, found.2) :=
    congrArg (·, move shift found.2) (move_insertIfNew shift name config found.1).symm
  have hother (directive : Directive) :
      (move shift found.1, move shift found.2 ++ [move shift directive]) =
        move shift (found.1, found.2 ++ [directive]) :=
    congrArg (move shift found.1, ·) (move_append shift found.2 [directive]).symm
  cases directive with
  | trait name config | generic name config => exact htrait name config
  | conditional condition body elseBody => cases elseBody <;> exact hother _
  | lifecycle | state | bindings | loop | whileLoop | imports | setting | topic => exact hother _

theorem move_attachLeading (node : Node) (leading : List PlacedDirective) :
    (move shift node).attachLeading ((move shift leading).map (·.directive)) =
      move shift (node.attachLeading (leading.map (·.directive))) := by
  have hfold (found : Table TraitConfig × List Directive) :
      ((move shift leading).map (·.directive)).foldl addLeading (move shift found) =
        move shift ((leading.map (·.directive)).foldl addLeading found) := by
    induction leading generalizing found with
    | nil => rfl
    | cons first rest ih =>
        refine Eq.trans ?_ (ih (addLeading found first.directive))
        exact congrArg (List.foldl addLeading · _) (move_addLeading found first.directive)
  have hstart : ((move shift node).traits, ([] : List Directive)) =
      move shift (node.traits, ([] : List Directive)) := by
    rw [Node.move_eq]
    rfl
  rw [attachLeading_eq, attachLeading_eq, hstart, hfold, Node.move_eq, Node.move_eq]
  dsimp only
  rw [move_append]
  rfl

section

variable {held held' : Held} (hheld : held.Follows bond held') {L : Node → Node → Prop}
  (hattach : Attaching bond L) {before : List Node}
include hheld hattach

theorem follows_topTurn {found found' : List Node × Node}
    (h : Rooted bond.shift before L found found') :
    FollowsBy bond .opening .opening (StepBy (Rooted bond.shift before L)) (topTurn held found)
      (topTurn held' found') := by
  obtain ⟨roots, loose⟩ := found
  obtain ⟨roots', loose'⟩ := found'
  obtain ⟨hroots, hloose⟩ := h
  refine follows_skipLayout.andThen fun _ => (follows_leadingDirectives hheld).bind fun leading => ?_
  refine follows_currentKind.andThen fun kind => ?_
  split
  · exact (follows_attachAll hattach hloose leading).bindBy fun _ _ hloose =>
      .pure (.done ⟨hroots, hloose⟩)
  · refine (hheld.element _).bind fun node => FollowsBy.weaken (.pure (.yield ⟨?_, hloose⟩))
    change _ :: roots = move bond.shift (_ :: roots') ++ before
    rw [move_attachLeading, show roots = move bond.shift roots' ++ before from hroots]
    rfl
  · exact (follows_attachAll hattach hloose leading).bindBy fun _ _ hloose =>
      follows_strayToken.andThen fun _ => FollowsBy.weaken (.pure (.yield ⟨hroots, hloose⟩))

theorem follows_topLevel {found found' : List Node × Node}
    (h : Rooted bond.shift before L found found') :
    FollowsBy bond .opening .opening (Rooted bond.shift before L)
      (iterate found (topTurn held)) (iterate found' (topTurn held')) :=
  .iterateBy h fun _ _ h' => follows_topTurn hheld hattach h'

end

end Parser
end SceneLang
