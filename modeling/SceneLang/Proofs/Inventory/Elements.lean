import SceneLang.Proofs.Inventory.Values
import SceneLang.Proofs.Parser.Logic

/-!
# The constructs of elements

While an element is read, its node accounts for what it holds and, unless the kind is put in at the
end only, for what it is.  A state machine is put in with the error that it has no initial state, if
it has none; a function without a name is left to the error that there is none.
-/

namespace SceneLang

open Value (constructs)

/-- The inventory of a node that is being read; `own` tells what is known of its kind. -/
def Node.draft (own : NodeKind → List Construct) (node : Node) : List Construct :=
  own node.kind ++ node.holdings

/-- Nothing is known of a kind that is put in at the end. -/
def NodeKind.unknown (_ : NodeKind) : List Construct :=
  []

namespace Node

/-- All is known of a node that accounts for its kind. -/
theorem constructs_subset_draft (node : Node) :
    node.constructs ⊆ node.draft (NodeKind.constructs none) := by
  rw [constructs_eq, draft]
  have hkind := NodeKind.constructs_subset node.name node.kind
  exact List.append_subset.mpr ⟨List.subset_append_of_subset_left _ hkind,
    List.subset_append_right _ _⟩

theorem draft_ofKind (own : NodeKind → List Construct) (kind : NodeKind) (loc : Location) :
    (ofKind kind loc).draft own = own kind :=
  List.append_nil _

theorem draft_fragment (loc : Location) :
    (fragment [] loc).draft (NodeKind.constructs none) = [] :=
  rfl

theorem constructs_fragment (loc : Location) : (fragment [] loc).constructs = [] := by
  rw [constructs_eq]
  rfl

end Node

def PlacedDirective.attached (placed : PlacedDirective) : List Construct :=
  placed.directive.attached

/-- The inventory of what is found, if anything is. -/
def optionConstructs {α : Type} (parts : α → List Construct) (found : Option α) : List Construct :=
  found.toList.flatMap parts

theorem optionConstructs_some {α : Type} (parts : α → List Construct) (found : α) :
    optionConstructs parts (some found) = parts found :=
  List.flatMap_singleton parts found

namespace Parser

variable {options : ParseOptions} {own : NodeKind → List Construct}

/-! ## Properties and directives -/

/-- What does not belong here is skipped. -/
theorem Accounts.skipped {α : Type} {given : List Construct} {parts : α → List Construct}
    {message : String} {value : α} (h : parts value = given) :
    Accounts options given (do
      unexpected message
      synchronize
      return value) parts :=
  .before (resting_unexpected message).steady fun _ => .before steady_synchronize fun _ => .give h

/-- What a node takes in is put beside what it holds. -/
theorem draft_subset {node value : Node} {more : List Construct} (hkind : value.kind = node.kind)
    (hholdings : value.holdings ⊆ node.holdings ++ more) :
    value.draft own ⊆ node.draft own ++ more := by
  rw [Node.draft, Node.draft, hkind, List.append_assoc]
  exact List.append_subset.mpr ⟨List.subset_append_left _ _,
    List.subset_append_of_subset_right _ hholdings⟩

theorem accounts_close (node : Node) (start : Position) :
    Accounts options node.constructs (close node start) Node.constructs := by
  apply Accounts.before (resting_locationFrom start).steady
  intro loc
  apply Accounts.give
  rw [Node.constructs_eq, Node.constructs_eq]
  rfl

theorem accounts_close_draft (node : Node) (start : Position) :
    Accounts options (node.draft (NodeKind.constructs none)) (close node start) Node.constructs :=
  (accounts_close node start).of_subset node.constructs_subset_draft

theorem accounts_property (node : Node) :
    Accounts options (node.draft own) (property node) (Node.draft own) := by
  apply Accounts.before resting_current.steady
  intro key
  have hrest : Accounts options (node.draft own) (do
      let place ← current
      let read ← valueOr synchronize
      checkProperty key read place
      return { node with properties := node.properties.insert key.text read })
      (Node.draft own) := by
    apply Accounts.before resting_current.steady
    intro place
    apply Accounts.read (accounts_valueOr steady_synchronize)
    intro read
    apply Accounts.before (resting_checkProperty key read place).steady
    exact fun _ => .pure (draft_subset rfl (node.holdings_property key.text read))
  apply Accounts.before steady_advance
  intro _
  apply Accounts.before resting_currentKind.steady
  intro _
  apply Accounts.ite
  · exact fun _ => .before steady_advance fun _ => hrest
  · exact fun _ => .before (resting_report _).steady fun _ => hrest

theorem accounts_attach (node : Node) (placed : PlacedDirective) :
    Accounts options (node.draft own ++ placed.attached) (attach node placed)
      (Node.draft own) := by
  have hattach : Accounts options (node.draft own ++ placed.attached)
      (pure (node.attach placed.directive)) (Node.draft own) :=
    .pure (draft_subset (node.kind_attach placed.directive) (node.holdings_attach placed.directive))
  unfold attach
  split
  · exact .ite (fun _ => .before (resting_report _).steady fun _ => hattach) fun _ => hattach
  · exact .ite (fun _ => .before (resting_report _).steady fun _ => hattach) fun _ => hattach
  · exact hattach

/-- What is held accounts for what it reads. -/
structure HeldAccounts (options : ParseOptions) (held : Held) : Prop where
  element : Accounts options [] held.element Node.constructs
  directive : ∀ allowBody, Accounts options [] (held.directive allowBody)
    (optionConstructs PlacedDirective.attached)
  conditional : Accounts options [] held.conditional Directive.attached

section

variable {held : Held} (hheld : HeldAccounts options held)
include hheld

theorem accounts_attachDirective (allowBody : Bool) (node : Node) :
    Accounts options (node.draft own) (attachDirective held allowBody node) (Node.draft own) := by
  apply Accounts.read (hheld.directive allowBody)
  intro found
  cases found with
  | none => exact .give (List.append_nil _).symm
  | some placed =>
      rw [optionConstructs_some]
      exact accounts_attach node placed

/-! ## Bodies -/

theorem accounts_bodyItem (node : Node) :
    Accounts options (node.draft own) (bodyItem held node) (Node.draft own) := by
  apply Accounts.before resting_currentKind.steady
  intro kind
  split
  · exact accounts_attachDirective hheld true node
  · apply Accounts.before steady_advance
    intro _
    apply Accounts.read (accounts_use .spread rfl rfl)
    intro _
    apply Accounts.read (accounts_valueOr steady_synchronize)
    intro read
    rw [List.append_assoc]
    exact .pure (draft_subset rfl (node.holdings_spread read))
  · apply Accounts.before resting_propertyAhead.steady
    intro _
    apply Accounts.ite
    · exact fun _ => accounts_property node
    · exact fun _ => .read hheld.element fun child =>
        .pure (draft_subset rfl (node.holdings_child child))
  · apply Accounts.before (resting_peekKind 1).steady
    exact fun _ => .ite (fun _ => accounts_property node) fun _ => .skipped rfl

theorem accounts_indentedBody (node : Node) :
    Accounts options (node.draft own) (indentedBody held node) (Node.draft own) := by
  have hitem (node : Node) : Accounts options (node.draft own) (indentedItem held node)
      (Node.draft own) := by
    apply Accounts.before resting_get.steady
    intro _
    apply (accounts_bodyItem hheld node).bind
    intro value
    apply Accounts.before resting_get.steady
    exact fun _ => .ite (fun _ => .before steady_advance fun _ => .give rfl) fun _ => .give rfl
  let parts (found : Node × Nat) : List Construct := found.1.draft own
  have hloop : Accounts options (parts (node, 0)) (iterate (node, 0) (indentedTurn held))
      parts := by
    apply Accounts.iterate
    rintro ⟨node, further⟩
    apply Accounts.before resting_currentKind.steady
    intro kind
    split
    · exact .before steady_advance fun _ => .give rfl
    · exact .before steady_advance fun _ => .give rfl
    · apply Accounts.before steady_advance
      exact fun _ => .ite (fun _ => .give rfl) fun _ => .bind (.lower further) fun _ => .give rfl
    · exact .give rfl
    · exact .before (resting_unexpected _).steady fun _ => .before steady_advance fun _ => .give rfl
    · exact .bind (hitem node) fun _ => .give rfl
  exact hloop.bind fun _ => .give rfl

/-! ## Heads of elements -/

omit hheld in
theorem accounts_elementName (node : Node) (headLine : Nat) :
    Accounts options (node.draft own) (elementName node headLine) (Node.draft own) := by
  have hname : Accounts options (node.draft own) (givenName node) (Node.draft own) := by
    apply Accounts.before resting_current.steady
    intro token
    split
    · exact .before steady_advance fun _ => .give rfl
    · exact .before (resting_reportUnterminated token).steady fun _ =>
        .before steady_advance fun _ => .give rfl
    · apply Accounts.before (resting_peekKind 1).steady
      exact fun _ => .ite (fun _ => .give rfl) fun _ => .before steady_advance fun _ => .give rfl
    · exact .give rfl
  have hid (node : Node) : Accounts options (node.draft own) (givenId node headLine)
      (Node.draft own) := by
    apply Accounts.before resting_current.steady
    intro mark
    apply Accounts.ite
    · intro _
      apply Accounts.before steady_advance
      intro _
      apply Accounts.before resting_current.steady
      exact fun _ => .ite (fun _ => .before steady_advance fun _ => .give rfl) fun _ =>
        .before (resting_unexpected _).steady fun _ => .give rfl
    · exact fun _ => .give rfl
  apply Accounts.before resting_current.steady
  exact fun _ => .ite (fun _ => .give rfl) fun _ => .bind hname hid

omit hheld in
/-- Parameters make no other kind of node out of a template. -/
theorem accounts_templateParams (node : Node) :
    Accounts options (node.draft (NodeKind.constructs none)) (templateParams node)
      (Node.draft (NodeKind.constructs none)) := by
  unfold templateParams
  split
  next hkind =>
    apply Accounts.before (resting_check .leftParen).steady
    intro _
    apply Accounts.ite
    · intro _
      apply Accounts.before steady_paramList
      intro params
      apply Accounts.give
      rw [Node.draft, Node.draft, hkind]
      rfl
    · exact fun _ => .give rfl
  next => exact .give rfl

omit hheld in
theorem accounts_elementTemplate (node : Node) (headLine : Nat) :
    Accounts options (node.draft (NodeKind.constructs none)) (elementTemplate node headLine)
      (Node.draft (NodeKind.constructs none)) := by
  have hset (token : Token) : Accounts options (node.draft (NodeKind.constructs none))
      (setTemplate node token) (Node.draft (NodeKind.constructs none)) := by
    unfold setTemplate
    split
    next hkind =>
      apply Accounts.give
      rw [Node.draft, Node.draft, hkind]
      rfl
    next => exact .before (resting_report _).steady fun _ => .give rfl
  apply Accounts.before resting_current.steady
  intro mark
  apply Accounts.ite
  · intro _
    apply Accounts.before steady_advance
    intro _
    apply Accounts.before resting_current.steady
    intro token
    split
    · exact .before steady_advance fun _ => hset token
    · exact .before steady_advance fun _ => hset token
    · exact .before (resting_reportUnterminated token).steady fun _ =>
        .before steady_advance fun _ => hset token
    · exact .before (resting_unexpected _).steady fun _ => .give rfl
  · exact fun _ => .give rfl

theorem accounts_elementHead (node : Node) (headLine : Nat) :
    Accounts options (node.draft own) (elementHead held node headLine) (Node.draft own) := by
  apply Accounts.iterate
  intro node
  apply Accounts.before resting_current.steady
  intro token
  apply Accounts.ite
  · exact fun _ => .give rfl
  intro _
  split
  case h_9 => exact .bind (accounts_attachDirective hheld false node) fun _ => .give rfl
  case h_10 =>
    apply Accounts.before (resting_peekKind 1).steady
    exact fun _ => .ite (fun _ => .bind (accounts_property node) fun _ => .give rfl) fun _ =>
      .give rfl
  case h_11 =>
    exact .before (resting_unexpected _).steady fun _ => .before (steady_skipHead headLine)
      fun _ => .give rfl
  all_goals exact .give rfl

/-! ## Elements -/

theorem accounts_elementRest (node : Node) (headLine : Nat) :
    Accounts options (node.draft (NodeKind.constructs none)) (elementRest held node headLine)
      Node.constructs := by
  have hbody (node : Node) : Accounts options (node.draft (NodeKind.constructs none))
      (elementBody held node) (Node.draft (NodeKind.constructs none)) := by
    apply Accounts.before resting_get.steady
    intro _
    apply Accounts.before (resting_check .newline).steady
    intro _
    apply Accounts.before (resting_peekKind 1).steady
    intro _
    apply Accounts.before (resting_check .leftBrace).steady
    intro _
    apply Accounts.ite
    · exact fun _ => .braced (accounts_bodyItem hheld)
    intro _
    apply Accounts.ite
    · exact fun _ => .before steady_advance fun _ => .before steady_advance fun _ =>
        .before (resting_use .indentation).steady fun _ => accounts_indentedBody hheld node
    · exact fun _ => .give rfl
  have hall : Accounts options (node.draft (NodeKind.constructs none))
      (elementRest held node headLine) (Node.draft (NodeKind.constructs none)) :=
    .bind (accounts_elementName node headLine) fun node =>
      .bind (accounts_templateParams node) fun node =>
        .bind (accounts_elementTemplate node headLine) fun node =>
          .bind (accounts_elementHead hheld node headLine) hbody
  exact hall.mono Node.constructs_subset_draft

omit hheld in
/-- An element of a kind that has nothing in it yet, with what is read of it one level deeper.  Where
that is refused, there is an error for what is missing. -/
theorem accounts_opened {kind : NodeKind} {start : Position} {given : List Construct}
    (body : Node → Parser Node) (hkind : kind.constructs none ⊆ given ++ Construct.faults)
    (hbody : Accounts options given (body (.ofKind kind default)) Node.constructs) :
    Accounts options given (do
      close (← deeper (refuseElement (.ofKind kind default)) (body (.ofKind kind default))) start)
      Node.constructs := by
  have hrefused : Accounts options (given ++ Construct.faults)
      (refuseElement (.ofKind kind default)) Node.constructs := by
    apply Accounts.before steady_skipElement
    intro _
    apply Accounts.pure
    rw [Node.constructs_eq, Node.holdings_ofKind, List.append_nil]
    exact hkind
  exact .bind (.deeper hrefused hbody) fun node => accounts_close node start

theorem accounts_genericElement (kind : NodeKind) :
    Accounts options (kind.constructs none) (genericElement held kind) Node.constructs := by
  apply Accounts.before resting_current.steady
  intro keyword
  apply Accounts.before steady_advance
  intro _
  have hrest := accounts_elementRest hheld (.ofKind kind default) keyword.line
  rw [Node.draft_ofKind] at hrest
  exact accounts_opened (elementRest held · keyword.line) (List.subset_append_left _ _) hrest

theorem accounts_exported : Accounts options [] (exported held) Node.constructs := by
  apply Accounts.before resting_startPosition.steady
  intro start
  apply Accounts.before steady_advance
  intro _
  have hrefused : Accounts options ([] ++ Construct.faults) (refuseElement (.fragment [] default))
      Node.constructs :=
    .before steady_skipElement fun _ => .drop (Node.constructs_fragment default)
  have hbody : Accounts options [] (do return { ← held.element with exported := true })
      Node.constructs := by
    apply hheld.element.bind
    intro node
    apply Accounts.give
    rw [Node.constructs_eq, Node.constructs_eq]
    rfl
  exact .bind (.deeper hrefused hbody) fun node => accounts_close node start

omit hheld in
theorem accounts_function : Accounts options [] function Node.constructs := by
  apply Accounts.before resting_startPosition.steady
  intro start
  apply Accounts.before steady_advance
  intro _
  apply Accounts.read (accounts_use .function rfl rfl)
  intro _
  apply Accounts.read (accounts_expectName _)
  intro found
  cases found with
  | none =>
      apply Accounts.before steady_synchronize
      intro _
      apply (accounts_close _ start).of_subset
      rw [Node.constructs_eq]
      decide
  | some name =>
      apply Accounts.before steady_paramList
      intro params
      apply Accounts.before steady_blockText
      intro body
      apply (accounts_close _ start).of_subset
      rw [Node.constructs_eq]
      exact List.Subset.refl _

end

end Parser

end SceneLang
