import SceneLang.Document
import SceneLang.Proofs.Bodies.Documents
import SceneLang.Proofs.Grammar.Values
import SceneLang.Value.Written

/-!
# Values as properties are read

Where a text stands for a value by the grammar, all of it on one line, the value is what an object
has as its property that is written so, and nothing is wrong with it.  A value that is written and
read again need not come back.
-/

namespace SceneLang

namespace Document

/-- The text of an object with a property `v` that is written so. -/
def propertyText (text : List Char) : List Char :=
  "object \x7b v: ".toList ++ text ++ " \x7d".toList

/-- The value that a text has as a property of an object, if nothing is wrong with it. -/
def property? (options : ParseOptions) (text : List Char) : Option Value :=
  let document := parse options (propertyText text)
  if document.success then document.root.properties.find? "v" else none

end Document

namespace Value

def isUnary : Value → Bool
  | .unary _ _ => true
  | _ => false

/-- A minus sign in front of a number is written as a part of it, and is read as one. -/
theorem not_readBack_of_negated :
    ¬∀ text value, Document.property? .default text = some value →
      Document.property? .default value.chars = some value := by
  intro hback
  have hread : ((Document.property? .default "- 5".toList).map isUnary) = some true := by
    decide +kernel
  have hagain : ((Document.property? .default "- 5".toList).bind fun value =>
      (Document.property? .default value.chars).map isUnary) = some false := by
    decide +kernel
  obtain ⟨value, hvalue, hunary⟩ := Option.map_eq_some_iff.mp hread
  rw [hvalue, Option.bind_some, hback _ value hvalue, Option.map_some, hunary] at hagain
  cases hagain

end Value

open SceneLang.Parser
open Grammar Outline

section

variable {context : Context} {state : State} {depth line : Nat} {key colon : Token}
  {tokens rest : List Token} {expected : Value} {node : Node}

/-- Nothing is wrong with a property that is called `v`. -/
theorem returns_checkProperty_v {place : Token} {post : Unit → State → Prop}
    (hkey : key.text = "v") (hpost : post () state) :
    Returns (checkProperty key expected place) context state post := by
  have hnone : Vocabulary.correction? "v" = none := by decide +kernel
  rw [checkProperty, Diagnostic.misspelledProperty?, hkey, hnone]
  unfold checkGeometry
  cases expected with
  | string geometry =>
      have hother : ¬("v" = "geometry" ∨ "v" = "shape") := by decide
      dsimp only [Option.map_none]
      rw [hkey, if_neg fun h => hother h.1]
      exact returns_pure.mpr hpost
  | _ => exact returns_pure.mpr hpost

/-- A property whose value is derived by the grammar is read, and nothing is reported. -/
theorem returns_property_of_derives (hkey : key.kind = .identifier) (htext : key.text = "v")
    (hcolon : colon.kind = .colon)
    (hvalue : Derives depth (.nested .any expected) state.expressions tokens state.expressions)
    (hline : ∀ token ∈ tokens, token.line = line)
    (hbefore : Before (key :: colon :: (tokens ++ rest)) state)
    (hroom : state.nesting + depth ≤ maxNesting) (hends : EndsItem state.braceDepth rest) :
    Returns (property node) context state fun found next =>
      (found = { node with properties := node.properties.insert "v" expected } ∧
        next.log = state.log) ∧ Goes rest state next := by
  have hnamed := hbefore.passes (.of_kind hkey rfl) fun _ => by rw [hkey]; rfl
  have hinside := hnamed.before (by rw [hcolon]; rfl) hbefore.calm
  have hpassed := hnamed.trans (hinside.passes (.of_kind hcolon rfl) fun _ => by rw [hcolon]; rfl)
  obtain ⟨hempty, -⟩ | ⟨first, others, rfl, -⟩ := hvalue.head
  · contradiction
  have hplain : first.kind.isLayout = false := (hvalue.plain first List.mem_cons_self).1
  have hfirst : Before (first :: others ++ rest) state.advance.advance :=
    hpassed.before hplain hbefore.calm
  have htable : state.advance.advance.expressions = state.expressions := by rw [hpassed.eq]
  rw [property, returns_bind, hbefore.sees.current, returns_bind, hbefore.sees.advance,
    returns_bind, hinside.sees.currentKind, hcolon]
  dsimp only
  rw [if_pos (show TokenKind.colon.separatesKey = true from rfl), returns_bind,
    hinside.sees.advance, returns_bind, returns_current hfirst.ended, returns_bind, valueOr,
    returns_bind, returns_setValueFailed hfirst.calm, returns_bind]
  apply (hvalue.returns_value hline
    ⟨hfirst.ended, hfirst.visible, by rw [hpassed.nesting]; exact hroom, hfirst.calm, htable⟩
    (by rw [hpassed.braceDepth]; exact hends.stops line)).mono
  rintro _ next ⟨rfl, hread⟩
  rw [returns_bind, returns_ifFailed hread.calm, returns_pure, returns_bind]
  apply returns_checkProperty_v htext
  rw [returns_pure, htext]
  exact ⟨⟨rfl, hread.log.trans hpassed.log⟩, hread.ended, hread.ahead,
    hread.braceDepth.trans hpassed.braceDepth, hread.nesting.trans hpassed.nesting, hread.calm⟩

theorem endsItem_of_rightBrace {closing : Token} (hclosing : closing.kind = .rightBrace)
    (braceDepth : Nat) : EndsItem braceDepth (closing :: rest) :=
  ⟨closing, rest, visible_cons (by rw [hclosing]; rfl), .inr (.inl hclosing)⟩

/-- The body of an object with nothing but a property in it. -/
theorem returns_elementBody_of_derives (levels : Nat) {opening closing : Token}
    (hopening : opening.kind = .leftBrace) (hkey : key.kind = .identifier)
    (htext : key.text = "v") (hcolon : colon.kind = .colon)
    (hvalue : ∀ table, Derives depth (.nested .any expected) table tokens table)
    (hline : ∀ token ∈ tokens, token.line = line) (hclosing : closing.kind = .rightBrace)
    (hsees : Sees opening (key :: colon :: (tokens ++ closing :: rest)) state)
    (hcalm : state.valueFailed = false) (hroom : state.nesting + depth ≤ maxNesting) :
    Returns (elementBody (level levels) node) context state fun found next =>
      (found.properties.find? "v" = some expected ∧ next.log.unplaced = state.log.unplaced) ∧
        Goes rest state next := by
  have hfits : Gist.Fits ⟨node, state.log.unplaced, state.features.filter (· ≠ .indentation)⟩
      node state := ⟨rfl, rfl, rfl⟩
  have hplain : key.kind.isLayout = false := by rw [hkey]; rfl
  have hinside : Sees opening ([] ++ key :: colon :: (tokens ++ closing :: rest)) state := hsees
  refine returns_elementBody_braced hinside hopening (by simp) hplain hcalm hfits
    fun entered hentered hdepth hnesting hlog => ?_
  have hitem : Returns (bodyItem (level levels) node) context entered fun found next =>
      (found = { node with properties := node.properties.insert "v" expected } ∧
        next.log = entered.log) ∧ Goes ([] ++ closing :: rest) entered next := by
    rw [bodyItem, returns_bind, hentered.sees.currentKind, hkey]
    dsimp only
    rw [returns_bind]
    apply returns_propertyAhead_of_colon hentered hcolon
    rw [if_pos rfl]
    exact returns_property_of_derives hkey htext hcolon (hvalue entered.expressions) hline
      hentered (by rw [hnesting]; exact hroom) (endsItem_of_rightBrace hclosing _)
  have hshorter : ([] ++ closing :: rest).length < entered.ahead.length := by
    have hlength := hentered.length_le
    simp only [List.length_cons, List.length_append, List.length_nil] at hlength ⊢
    omega
  rw [bodyLoop, returns_iterate]
  apply (returns_bracedTurn_of_item hshorter (.inl hkey) hentered.sees hitem opening).mono
  rintro _ next ⟨_, rfl, ⟨rfl, hsame⟩, hgoes⟩
  refine ⟨by rw [hgoes.ahead]; exact hshorter, ?_⟩
  have hlast : Before (closing :: rest) next :=
    hgoes.before (by rw [hdepth]; exact Nat.succ_pos _) (by simp) (by rw [hclosing]; rfl)
  have hkind : closing.kind = Style.braced.closing := hclosing
  apply returns_bodyLoop_of_closing hlast hkind
  intro last hend hlogged _
  refine ⟨⟨?_, by rw [hlogged, hsame]; exact hlog.log⟩, hend.ended, hend.ahead, ?_, ?_, hend.calm⟩
  · exact (Table.find?_insert _ _ _ _).trans (if_pos rfl)
  · rw [hend.braceDepth, hgoes.braceDepth, hdepth]
    rfl
  · exact hend.nesting.trans (hgoes.nesting.trans hnesting)

theorem isConstruct_object : Vocabulary.isConstruct "object" = true := by
  decide +kernel

theorem object_ne_logic : "object" ≠ "logic" := by
  decide

theorem object_ne_machine : "object" ≠ "state_machine" := by
  decide

/-- The keyword of an object. -/
def objectKeyword : Keyword :=
  ⟨"object", isConstruct_object, object_ne_logic, object_ne_machine⟩

/-- An object with nothing but a property in it is read. -/
theorem returns_object_of_derives (levels : Nat) {word opening closing : Token}
    (hword : word.kind = .identifier) (hobject : word.text = "object")
    (hopening : opening.kind = .leftBrace) (hkey : key.kind = .identifier)
    (htext : key.text = "v") (hcolon : colon.kind = .colon)
    (hvalue : ∀ table, Derives depth (.nested .any expected) table tokens table)
    (hline : ∀ token ∈ tokens, token.line = line) (hclosing : closing.kind = .rightBrace)
    (hbefore : Before (word :: opening :: key :: colon :: (tokens ++ closing :: rest)) state)
    (hroom : state.nesting + 1 + depth ≤ maxNesting) :
    Returns (elementWith (level levels)) context state fun found next =>
      found.properties.find? "v" = some expected ∧ next.log.unplaced = state.log.unplaced ∧
        Goes rest state next := by
  have hfits : Gist.Fits ⟨.fragment [] default, state.log.unplaced,
      state.features.filter (· ≠ .indentation)⟩ (.fragment [] default) state := ⟨rfl, rfl, rfl⟩
  have hspelt : HeadSpelt objectKeyword none [word] := ⟨word, hword, hobject, rfl⟩
  have hkeyword : word.text = objectKeyword.word := hobject
  have hopens : OpensBody state.braceDepth opening := .inl hopening
  apply returns_elementWith hbefore.sees hkeyword hfits
  intro features _
  have hnoted : Before ([word] ++ opening :: key :: colon :: (tokens ++ closing :: rest))
      { state with features := features } := ⟨hbefore.ended, hbefore.visible, hbefore.calm⟩
  apply hspelt.returns hnoted hopens (show state.nesting < maxNesting by omega)
  intro entered hpasses
  have hnesting : entered.nesting = state.nesting + 1 := hpasses.nesting
  apply (returns_elementBody_of_derives levels hopening hkey htext hcolon hvalue hline hclosing
    (hopens.sees hpasses rfl) (hpasses.valueFailed.trans hbefore.calm)
    (by rw [hnesting]; exact hroom)).mono
  rintro found next ⟨⟨hfound, hlog⟩, hgoes⟩ loc
  refine ⟨hfound, hlog.trans (congrArg Log.unplaced hpasses.log), hgoes.ended, hgoes.ahead,
    hgoes.braceDepth.trans hpasses.braceDepth, ?_, hgoes.calm⟩
  dsimp only
  rw [hgoes.nesting, hnesting, Nat.add_sub_cancel]

end

namespace Document

variable {depth line : Nat} {text : List Char} {expected : Value} {tokens : List Token}

/-- The value is what a parse without errors leaves as the property. -/
theorem property?_of_returns (options : ParseOptions)
    (h : Returns Parser.document ⟨propertyText text, options⟩
      (.start options (tokenize (propertyText text))) fun root next =>
        root.properties.find? "v" = some expected ∧
          next.log.unplaced = (State.start options (tokenize (propertyText text))).log.unplaced) :
    property? options text = some expected := by
  obtain ⟨root, next, hrun, hroot, hlog⟩ := h
  have hparse : parse options (propertyText text) = ofState root next := by
    rw [parse, ofTokens, Parser.run, Parser.withEnd_tokenize, show Parser.document _ _ = _ from hrun]
  have hsuccess : (ofState root next).success = true := by
    rw [ofState, ← Log.hasErrors_unplaced, hlog]
    rfl
  rw [property?, hparse, if_pos hsuccess]
  exact hroot

/-- The tokens of a text that is nothing but an object with a property called `v`. -/
inductive PropertyTokens (tokens : List Token) : List Token → Prop
  | mk {word opening key colon closing newline last : Token} (hword : word.kind = .identifier)
      (hobject : word.text = "object") (hopening : opening.kind = .leftBrace)
      (hkey : key.kind = .identifier) (htext : key.text = "v") (hcolon : colon.kind = .colon)
      (hclosing : closing.kind = .rightBrace) (hnewline : newline.kind = .newline)
      (hlast : last.kind = .eof) :
      PropertyTokens tokens (word :: opening :: key :: colon :: (tokens ++ [closing, newline, last]))

theorem PropertyTokens.mem {all : List Token} (h : PropertyTokens tokens all) {token : Token}
    (hmem : token ∈ tokens) : token ∈ all := by
  cases h
  simp [hmem]

/-- What is written so is what the object has as its property. -/
theorem property?_of_derives (options : ParseOptions)
    (htokens : PropertyTokens tokens (tokenize (propertyText text)))
    (hvalue : ∀ table, Derives depth (.nested .any expected) table tokens table)
    (hline : ∀ token ∈ tokens, token.line = line) (hroom : 1 + depth ≤ maxNesting) :
    property? options text = some expected := by
  let context : Context := ⟨propertyText text, options⟩
  let state : State := .start options (tokenize (propertyText text))
  have hended : Ended state.ahead := ended_tokenize _
  generalize hall : tokenize (propertyText text) = all at htokens
  obtain @⟨word, opening, key, colon, closing, newline, last, hword, hobject, hopening, hkey,
    htext, hcolon, hclosing, hnewline, hlast⟩ := htokens
  have hbefore : Before
      (word :: opening :: key :: colon :: (tokens ++ [closing, newline, last])) state := by
    refine ⟨hended, ?_, rfl⟩
    rw [State.visibleFrom, show state.ahead = _ from hall]
    exact visible_zero _
  have hdeep : state.nesting + 1 + depth ≤ maxNesting := by
    rw [show state.nesting = 0 from rfl, Nat.zero_add]
    exact hroom
  apply property?_of_returns options
  change Returns document context state fun root next =>
    root.properties.find? "v" = some expected ∧ next.log.unplaced = state.log.unplaced
  rw [document, returns_bind, startPosition, returns_bind, returns_current hended, returns_pure,
    returns_bind, returns_get, returns_bind, topLevel, returns_iterate]
  apply returns_topTurn hbefore.sees hword
  apply (returns_object_of_derives _ hword hobject hopening hkey htext hcolon hvalue hline
    hclosing hbefore hdeep).mono
  rintro found next ⟨hfound, hlog, hgoes⟩
  have hshorter : next.ahead.length < state.ahead.length := by
    have hlength := hbefore.length_le
    rw [hgoes.ahead]
    simp only [List.length_cons, List.length_append, List.length_nil] at hlength ⊢
    omega
  refine ⟨hshorter, ?_⟩
  rw [returns_iterate]
  have hahead : next.ahead = [newline] ++ [last] := hgoes.ahead
  apply returns_topTurn_of_layout hgoes.ended hahead (hgoes.braceDepth.trans rfl)
    (by simp [hnewline, TokenKind.isLayout]) hlast
  exact returns_pure.mpr ⟨hfound, hlog⟩

end Document

end SceneLang
