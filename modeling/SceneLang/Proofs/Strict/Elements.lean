import SceneLang.Proofs.Strict.Values

/-!
# Elements in strict and lenient parses

The nodes that are being made may differ, since a strict parse drops directives that it does not
know.  What is read next does not depend on them.
-/

namespace SceneLang
namespace Parser

variable {α β : Type} {base : Prop}

/-! ## Parsers that stand still -/

/-- The parser reads nothing and changes nothing; all it may do is report. -/
def Still (p : Parser α) : Prop :=
  ∀ context state, ∃ value new, p context state = .ok (value, state.withLog (state.log.pushAll new))

theorem still_pure (value : α) : Still (pure value : Parser α) :=
  fun _ _ => ⟨value, [], rfl⟩

theorem still_report (d : Diagnostic) : Still (report d) :=
  fun _ _ => ⟨(), [d], rfl⟩

theorem Still.bind {p : Parser α} {f : α → Parser β} (hp : Still p)
    (hf : ∀ value, Still (f value)) : Still (p >>= f) := by
  intro context state
  obtain ⟨value, new, hrun⟩ := hp context state
  obtain ⟨result, newer, hrest⟩ := hf value context (state.withLog (state.log.pushAll new))
  refine ⟨result, new ++ newer, ?_⟩
  change (p context state >>= fun r => f r.1 context r.2) = _
  rw [hrun, Log.pushAll_append]
  exact hrest

theorem Still.ite {c : Prop} [Decidable c] {p q : Parser α} (hp : Still p) (hq : Still q) :
    Still (if c then p else q) := by
  split
  · exact hp
  · exact hq

theorem still_get {f : State → Parser β} (hf : ∀ state, Still (f state)) :
    Still (MonadState.get >>= f) :=
  fun context state => hf state context state

theorem still_read {f : Context → Parser β} (hf : ∀ context, Still (f context)) :
    Still (MonadReader.read >>= f) :=
  fun context state => hf context context state

theorem still_endPosition : Still endPosition := by
  refine still_get fun state => ?_
  split
  · exact still_pure _
  · exact still_read fun _ => still_pure _

theorem still_locationFrom (start : Position) : Still (locationFrom start) :=
  still_endPosition.bind fun _ => still_pure _

/-- Two parsers that stand still keep pace, whatever they report. -/
theorem Paces.of_still {p q : Parser α} (hp : Still p) (hq : Still q) (hblind : Blind p)
    (hsame : base → p = q) : Paces base Loosely p q := by
  by_cases hbase : base
  · rw [← hsame hbase]
    exact hblind.loosely
  · intro source options state log
    obtain ⟨value, new, hrun⟩ := hp ⟨source, options.withStrict true⟩ state
    obtain ⟨value', new', hrun'⟩ := hq ⟨source, options.withStrict false⟩ (state.withLog log)
    rw [hrun, hrun']
    have hlog : (state.withLog (state.log.pushAll new)).log = state.log.pushAll new := rfl
    exact .reached new new' hlog trivial fun h => absurd h hbase

/-! ## Attaching -/

theorem still_attach (node : Node) (placed : PlacedDirective) : Still (attach node placed) := by
  unfold attach
  split
  · exact .ite ((still_report _).bind fun _ => still_pure _) (still_pure _)
  · exact .ite ((still_report _).bind fun _ => still_pure _) (still_pure _)
  · exact still_pure _

theorem blind_attach (node : Node) (placed : PlacedDirective) : Blind (attach node placed) := by
  unfold attach
  split
  · exact .ite (fun _ => (blind_report _).andThen fun _ => blind_pure _) fun _ => blind_pure _
  · exact .ite (fun _ => (blind_report _).andThen fun _ => blind_pure _) fun _ => blind_pure _
  · exact blind_pure _

theorem still_close (node : Node) (start : Position) : Still (close node start) :=
  (still_locationFrom start).bind fun _ => still_pure _

theorem blind_close (node : Node) (start : Position) : Blind (close node start) :=
  (blind_locationFrom start).andThen fun _ => blind_pure _

theorem paces_close {node node' : Node} (start : Position) :
    Paces (node = node') Loosely (close node start) (close node' start) :=
  .of_still (still_close _ _) (still_close _ _) (blind_close _ _) fun hnode => by rw [hnode]

/-- What an element or a directive holds is read at the same pace. -/
structure Held.KeepsPace (held : Held) : Prop where
  element : Paces True Loosely held.element held.element
  directive (allowBody : Bool) :
    Paces True Loosely (held.directive allowBody) (held.directive allowBody)
  conditional : Paces True Loosely held.conditional held.conditional

section

variable {held : Held} (hheld : held.KeepsPace) {node node' : Node}
include hheld

theorem paces_attachDirective (allowBody : Bool) (node node' : Node) :
    Paces (node = node') Loosely (attachDirective held allowBody node)
      (attachDirective held allowBody node') := by
  refine ((hheld.directive allowBody).of_imp fun _ => trivial).bind fun found found' _ => ?_
  cases found with
  | none =>
      cases found' with
      | none => exact .pure trivial And.left
      | some placed' =>
          exact .of_still (still_pure _) (still_attach _ _) (blind_pure _) (by simp)
  | some placed =>
      cases found' with
      | none => exact .of_still (still_attach _ _) (still_pure _) (blind_attach _ _) (by simp)
      | some placed' =>
          refine .of_still (still_attach _ _) (still_attach _ _) (blind_attach _ _) ?_
          rintro ⟨rfl, hplaced⟩
          rw [Option.some.inj hplaced]

omit hheld in
theorem blind_checkGeometry (key : Token) (value : Value) (place : Token) :
    Blind (checkGeometry key value place) := by
  unfold checkGeometry
  split
  · exact .ite (fun _ => blind_report _) fun _ => blind_pure _
  · exact blind_pure _

omit hheld in
theorem blind_checkProperty (key : Token) (value : Value) (place : Token) :
    Blind (checkProperty key value place) := by
  unfold checkProperty
  split
  · exact (blind_report _).andThen fun _ => blind_checkGeometry _ _ _
  · exact blind_checkGeometry _ _ _

omit hheld in
theorem paces_property (node node' : Node) :
    Paces (node = node') Loosely (property node) (property node') := by
  have hrest (key : Token) : Paces (node = node') Loosely
      (do
        let place ← current
        let read ← valueOr synchronize
        checkProperty key read place
        return { node with properties := node.properties.insert key.text read })
      (do
        let place ← current
        let read ← valueOr synchronize
        checkProperty key read place
        return { node' with properties := node'.properties.insert key.text read }) :=
    blind_current.andThen fun _ => (blind_valueOr blind_synchronize).andThen fun _ =>
      (blind_checkProperty _ _ _).andThen fun _ => .pure trivial fun hnode => by rw [hnode]
  refine blind_current.andThen fun key => blind_advance.andThen fun _ =>
    blind_currentKind.andThen fun _ => .ite (fun _ => ?_) fun _ => ?_
  · exact blind_advance.andThen fun _ => hrest key
  · exact (blind_report _).andThen fun _ => hrest key

omit hheld in
theorem blind_propertyAhead : Blind propertyAhead := by
  refine blind_current.andThen fun _ => (blind_peek 1).andThen fun _ => ?_
  refine .ite (fun _ => blind_pure _) fun _ => .ite (fun _ => blind_pure _) fun _ => ?_
  exact (blind_peekKind 2).andThen fun _ => .ite (fun _ => blind_pure _) fun _ => blind_pure _

/-! ## Bodies -/

theorem paces_bodyItem (node node' : Node) :
    Paces (node = node') Loosely (bodyItem held node) (bodyItem held node') := by
  refine blind_currentKind.andThen fun kind => ?_
  split
  · exact paces_attachDirective hheld true node node'
  · exact blind_advance.andThen fun _ => (blind_use _).andThen fun _ =>
      (blind_valueOr blind_synchronize).andThen fun _ => .pure trivial fun hnode => by rw [hnode]
  · refine blind_propertyAhead.andThen fun _ => .ite (fun _ => paces_property node node') fun _ => ?_
    refine (hheld.element.of_imp fun _ => trivial).bind fun child child' _ => .pure trivial ?_
    rintro ⟨rfl, rfl⟩
    rfl
  · refine (blind_peekKind 1).andThen fun _ => .ite (fun _ => paces_property node node') fun _ => ?_
    exact (blind_unexpected _).andThen fun _ => blind_synchronize.andThen fun _ => .pure trivial id

theorem paces_indentedItem (node node' : Node) :
    Paces (node = node') Loosely (indentedItem held node) (indentedItem held node') := by
  refine .get fun _ _ => (paces_bodyItem hheld node node').bind fun item item' _ => ?_
  refine .get fun _ _ => .ite (fun _ => ?_) fun _ => .pure trivial And.right
  exact blind_advance.andThen fun _ => .pure trivial And.right

theorem paces_indentedTurn {found found' : Node × Nat} (hfurther : SameSecond found found') :
    Paces (found = found') (Paces.Turn SameSecond) (indentedTurn held found)
      (indentedTurn held found') := by
  obtain ⟨node, further⟩ := found
  obtain ⟨node', _⟩ := found'
  obtain rfl : further = _ := hfurther
  have hyield (further' : Nat) : Paces ((node, further) = (node', further)) (Paces.Turn SameSecond)
      (pure (.yield (node, further'))) (pure (.yield (node', further'))) :=
    .pure (.yield rfl) fun hnode => by rw [(Prod.mk.inj hnode).1]
  have hdone : Paces ((node, further) = (node', further)) (Paces.Turn SameSecond)
      (pure (.done (node, further))) (pure (.done (node', further))) :=
    .pure (.done rfl) (congrArg ForInStep.done)
  refine blind_currentKind.andThen fun kind => ?_
  split
  · exact blind_advance.andThen fun _ => hyield further
  · exact blind_advance.andThen fun _ => hyield (further + 1)
  · refine blind_advance.andThen fun _ => .ite (fun _ => hdone) fun _ => ?_
    exact (blind_lower further).andThen fun _ => hyield _
  · exact hdone
  · exact (blind_unexpected _).andThen fun _ => blind_advance.andThen fun _ => hyield further
  · refine ((paces_indentedItem hheld node node').of_imp fun hnode => (Prod.mk.inj hnode).1).bind
      fun item item' _ => .pure (.yield rfl) ?_
    rintro ⟨_, rfl⟩
    rfl

theorem paces_indentedBody (node node' : Node) :
    Paces (node = node') Loosely (indentedBody held node) (indentedBody held node') := by
  have hloop : Paces ((node, 0) = (node', 0)) SameSecond
      (iterate (node, 0) (indentedTurn held)) (iterate (node', 0) (indentedTurn held)) :=
    .iterate rfl fun _ _ hfurther => paces_indentedTurn hheld hfurther
  refine (hloop.of_imp fun hnode => by rw [hnode]).bind fun found found' _ => .pure trivial ?_
  exact fun hfound => by rw [hfound.2]

/-! ## Heads of elements -/

omit hheld in
theorem blind_givenName (node : Node) : Blind (givenName node) := by
  refine blind_current.andThen fun token => ?_
  split
  · exact blind_advance.andThen fun _ => blind_pure _
  · exact (blind_reportUnterminated _).andThen fun _ => blind_advance.andThen fun _ => blind_pure _
  · exact (blind_peekKind 1).andThen fun _ => .ite (fun _ => blind_pure _) fun _ =>
      blind_advance.andThen fun _ => blind_pure _
  · exact blind_pure _

omit hheld in
theorem blind_givenId (node : Node) (headLine : Nat) : Blind (givenId node headLine) := by
  refine blind_current.andThen fun _ => .ite (fun _ => ?_) fun _ => blind_pure _
  refine blind_advance.andThen fun _ => blind_current.andThen fun _ => .ite (fun _ => ?_) fun _ => ?_
  · exact blind_advance.andThen fun _ => blind_pure _
  · exact (blind_unexpected _).andThen fun _ => blind_pure _

omit hheld in
theorem blind_elementName (node : Node) (headLine : Nat) : Blind (elementName node headLine) :=
  blind_current.andThen fun _ => .ite (fun _ => blind_pure _) fun _ =>
    (blind_givenName node).andThen fun _ => blind_givenId _ headLine

omit hheld in
theorem blind_setTemplate (node : Node) (token : Token) : Blind (setTemplate node token) := by
  unfold setTemplate
  split
  · exact blind_pure _
  · exact (blind_report _).andThen fun _ => blind_pure _

omit hheld in
theorem blind_templateName (node : Node) : Blind (templateName node) := by
  refine blind_current.andThen fun token => ?_
  split
  · exact blind_advance.andThen fun _ => blind_setTemplate node token
  · exact blind_advance.andThen fun _ => blind_setTemplate node token
  · exact (blind_reportUnterminated _).andThen fun _ => blind_advance.andThen fun _ =>
      blind_setTemplate node token
  · exact (blind_unexpected _).andThen fun _ => blind_pure _

omit hheld in
theorem blind_skipHead (headLine : Nat) : Blind (skipHead headLine) :=
  blind_skipUntil (blind_current.andThen fun _ => blind_pure _)

theorem paces_headTurn (headLine : Nat) (node node' : Node) :
    Paces (node = node') (Paces.Turn Loosely) (headTurn held headLine node)
      (headTurn held headLine node') := by
  have hdone : Paces (node = node') (Paces.Turn Loosely) (pure (.done node))
      (pure (.done node')) := .pure (.done trivial) (congrArg ForInStep.done)
  have hyield {p q : Parser Node} (h : Paces (node = node') Loosely p q) :
      Paces (node = node') (Paces.Turn Loosely) (do return .yield (← p))
        (do return .yield (← q)) :=
    h.bind fun _ _ _ => .pure (.yield trivial) fun hsame => congrArg ForInStep.yield hsame.2
  refine blind_current.andThen fun token => .ite (fun _ => hdone) fun _ => ?_
  split
  · exact hdone
  · exact hdone
  · exact hdone
  · exact hdone
  · exact hdone
  · exact hdone
  · exact hdone
  · exact hdone
  · exact hyield (paces_attachDirective hheld false node node')
  · exact (blind_peekKind 1).andThen fun _ => .ite (fun _ => hyield (paces_property node node'))
      fun _ => hdone
  · exact (blind_unexpected _).andThen fun _ => (blind_skipHead headLine).andThen fun _ => hdone

theorem paces_elementHead (headLine : Nat) (node node' : Node) :
    Paces (node = node') Loosely (elementHead held node headLine)
      (elementHead held node' headLine) :=
  .iterate trivial fun value value' _ => paces_headTurn hheld headLine value value'

omit hheld in
theorem blind_skipElement : Blind skipElement := by
  have htest : Blind (do
      let kind ← currentKind
      return kind = .leftBrace || kind.endsBlock ||
        ((← get).braceDepth = 0 && kind.isLayout)) := by
    refine blind_currentKind.andThen fun _ => .get fun state log => ?_
    simp only [State.braceDepth_withLog]
    exact blind_pure _
  refine (blind_skipUntil htest).andThen fun _ => (blind_check _).andThen fun _ =>
    .ite (fun _ => ?_) fun _ => blind_pure _
  exact blind_skipBalanced.andThen fun _ => blind_pure _

/-! ## Elements -/

omit hheld in
theorem blind_templateParams (node : Node) : Blind (templateParams node) := by
  unfold templateParams
  split
  · exact (blind_check _).andThen fun _ => .ite
      (fun _ => blind_paramList.andThen fun _ => blind_pure _) fun _ => blind_pure _
  · exact blind_pure _

omit hheld in
theorem blind_elementTemplate (node : Node) (headLine : Nat) :
    Blind (elementTemplate node headLine) :=
  blind_current.andThen fun _ => .ite
    (fun _ => blind_advance.andThen fun _ => blind_templateName node) fun _ => blind_pure _

theorem paces_elementBody (node node' : Node) :
    Paces (node = node') Loosely (elementBody held node) (elementBody held node') := by
  refine .get fun state log => ?_
  simp only [State.braceDepth_withLog]
  refine (blind_check _).andThen fun _ => (blind_peekKind 1).andThen fun _ => ?_
  refine (blind_check _).andThen fun _ => .ite (fun _ => ?_) fun _ => .ite (fun _ => ?_) ?_
  · exact paces_braced trivial fun value value' _ => paces_bodyItem hheld value value'
  · exact blind_advance.andThen fun _ => blind_advance.andThen fun _ =>
      (blind_use _).andThen fun _ => paces_indentedBody hheld node node'
  · exact fun _ => .pure trivial id

theorem paces_elementRest (node : Node) (headLine : Nat) :
    Paces True Loosely (elementRest held node headLine) (elementRest held node headLine) := by
  refine (blind_elementName node headLine).andThen fun node => ?_
  refine (blind_templateParams node).andThen fun node => ?_
  refine (blind_elementTemplate node headLine).andThen fun node => ?_
  refine ((paces_elementHead hheld headLine node node).of_imp fun _ => rfl).bind fun node node' _ => ?_
  exact (paces_elementBody hheld node node').of_imp And.right

omit hheld in
theorem blind_refuseElement (node : Node) : Blind (refuseElement node) :=
  blind_skipElement.andThen fun _ => blind_pure _

omit hheld in
/-- A node that is refused where the levels are used up, or read, and then closed. -/
theorem paces_closed {body : Parser Node} (node : Node) (start : Position)
    (hbody : Paces True Loosely body body) : Paces True Loosely
      (do close (← deeper (refuseElement node) body) start)
      (do close (← deeper (refuseElement node) body) start) :=
  (paces_deeper (blind_refuseElement node).loosely hbody).bind fun _ _ _ => (paces_close start).of_imp And.right

theorem paces_genericElement (kind : NodeKind) :
    Paces True Loosely (genericElement held kind) (genericElement held kind) :=
  blind_current.andThen fun keyword => blind_advance.andThen fun _ =>
    paces_closed _ _ (paces_elementRest hheld _ keyword.line)

theorem paces_exported : Paces True Loosely (exported held) (exported held) := by
  refine blind_startPosition.andThen fun start => blind_advance.andThen fun _ => ?_
  refine paces_closed _ _ (hheld.element.bind fun node node' _ => .pure trivial ?_)
  rintro ⟨_, rfl⟩
  rfl

omit hheld in
theorem blind_function : Blind function := by
  refine blind_startPosition.andThen fun start => blind_advance.andThen fun _ => ?_
  refine (blind_use _).andThen fun _ => (blind_expectName _).andThen fun name => ?_
  cases name with
  | none => exact blind_synchronize.andThen fun _ => blind_close _ _
  | some name => exact blind_paramList.andThen fun _ => blind_blockText.andThen fun _ =>
      blind_close _ _

end

end Parser
end SceneLang
