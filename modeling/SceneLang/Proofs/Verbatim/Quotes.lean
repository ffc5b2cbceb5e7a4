import SceneLang.Proofs.Inventory.Constructs
import SceneLang.Proofs.Parser.Traits
import SceneLang.Proofs.Place.Lays
import SceneLang.Proofs.Verbatim.Blocks

/-!
# Parsers that quote the source

The bodies of functions, handlers and hooks are kept as text, and so are those of states and of
functions within values.  The bodies of a tree are those of its nodes and directives and those in
the values that these hold; what a node takes in adds its own bodies at most.

A body is quoted if it is the text of a block of the source.  Once it is, it stays so, and therefore
what a parser builds is quoted if it is built of bodies that are given, of those in what it reads,
and of those that it captures itself.
-/

namespace SceneLang

/-- A body that is kept as text.  A hook may be written without one, everything else needs one. -/
structure RawBody where
  text : String
  needed : Bool
deriving DecidableEq, Repr

/-! ## Values -/

mutual

/-- The bodies in a value, those within other values included. -/
def Value.rawBodies : Value → List RawBody
  | .array items => Value.rawBodiesOfItems items
  | .object entries => Value.rawBodiesOfEntries entries
  | .binary _ left right => left.rawBodies ++ right.rawBodies
  | .unary _ operand => operand.rawBodies
  | .ternary condition thenBranch elseBranch =>
      condition.rawBodies ++ thenBranch.rawBodies ++ elseBranch.rawBodies
  | .spread inner => inner.rawBodies
  | .call callee args => callee.rawBodies ++ Value.rawBodiesOfItems args
  | .member target _ => target.rawBodies
  | .index target key => target.rawBodies ++ key.rawBodies
  | .arrow _ body => Value.rawBodiesOfBody body
  | .string _ | .number _ _ _ | .bool _ | .null | .reference _ | .interpolation _ _ => []

def Value.rawBodiesOfItems : List Value → List RawBody
  | [] => []
  | item :: rest => item.rawBodies ++ Value.rawBodiesOfItems rest

def Value.rawBodiesOfEntries : List ObjectEntry → List RawBody
  | [] => []
  | .field _ value :: rest => value.rawBodies ++ Value.rawBodiesOfEntries rest
  | .spread value :: rest => value.rawBodies ++ Value.rawBodiesOfEntries rest

def Value.rawBodiesOfBody : ArrowBody → List RawBody
  | .expr value => value.rawBodies
  | .block text => [⟨text, true⟩]

end

def ObjectEntry.rawBodies : ObjectEntry → List RawBody
  | .field _ value | .spread value => value.rawBodies

theorem Value.rawBodiesOfItems_eq (items : List Value) :
    Value.rawBodiesOfItems items = items.flatMap Value.rawBodies := by
  induction items with
  | nil => rfl
  | cons item rest ih => rw [rawBodiesOfItems, ih, List.flatMap_cons]

theorem Value.rawBodiesOfEntries_eq (entries : List ObjectEntry) :
    Value.rawBodiesOfEntries entries = entries.flatMap ObjectEntry.rawBodies := by
  induction entries with
  | nil => rfl
  | cons entry rest ih =>
      cases entry <;> rw [rawBodiesOfEntries, ih, List.flatMap_cons] <;> rfl

theorem Value.rawBodies_foldl_unary (ops : List UnaryOp) (value : Value) :
    (ops.foldl (fun value op => Value.unary op value) value).rawBodies = value.rawBodies := by
  induction ops generalizing value with
  | nil => rfl
  | cons op rest ih => rw [List.foldl_cons, ih, Value.rawBodies]

/-! ## Configurations and kinds of nodes -/

def TraitConfig.rawBodies (config : TraitConfig) : List RawBody :=
  config.args.flatMap Value.rawBodies ++ config.config.gather Value.rawBodies

def LogicBlock.rawBodies (block : LogicBlock) : List RawBody :=
  block.functions.map (⟨·.body, true⟩) ++ block.handlers.map (⟨·.body, true⟩) ++
    block.values.gather Value.rawBodies

def MachineState.rawBodies (state : MachineState) : List RawBody :=
  state.onEntry.toList.map (⟨·, true⟩) ++ state.onExit.toList.map (⟨·, true⟩) ++
    state.properties.gather Value.rawBodies

def StateMachine.rawBodies (machine : StateMachine) : List RawBody :=
  machine.states.flatMap MachineState.rawBodies

def NodeKind.rawBodies : NodeKind → List RawBody
  | .logic block => block.rawBodies
  | .stateMachine machine => machine.rawBodies
  | .function _ body => [⟨body, true⟩]
  | .element _ _ | .fragment | .composition _ | .template _ | .environment => []

namespace LogicBlock

variable (block : LogicBlock) (name : String) (params : List String) (body : String)

theorem rawBodies_function :
    ({ block with functions := block.functions ++ [LogicFunction.mk name params body] }).rawBodies ⊆
      block.rawBodies ++ [RawBody.mk body true] := by
  intro found hmem
  simp only [rawBodies, List.map_append, List.map_cons, List.map_nil, List.mem_append] at hmem ⊢
  grind

theorem rawBodies_handler :
    ({ block with handlers := block.handlers ++ [EventHandler.mk name params body] }).rawBodies ⊆
      block.rawBodies ++ [RawBody.mk body true] := by
  intro found hmem
  simp only [rawBodies, List.map_append, List.map_cons, List.map_nil, List.mem_append] at hmem ⊢
  grind

end LogicBlock

namespace MachineState

variable (state : MachineState) (found : Option String)

theorem mem_of_captured {body : RawBody} (h : body ∈ found.toList.map (RawBody.mk · true)) :
    body = ⟨found.getD "", true⟩ := by
  cases found with
  | none => cases h
  | some text => exact List.mem_singleton.mp h

/-- What was captured for the same event before is given up. -/
theorem rawBodies_onEntry :
    ({ state with onEntry := found }).rawBodies ⊆
      state.rawBodies ++ [RawBody.mk (found.getD "") true] := by
  intro body hmem
  have hcaptured := @mem_of_captured found body
  simp only [rawBodies, List.mem_append, List.mem_singleton] at hmem ⊢
  grind

theorem rawBodies_onExit :
    ({ state with onExit := found }).rawBodies ⊆
      state.rawBodies ++ [RawBody.mk (found.getD "") true] := by
  intro body hmem
  have hcaptured := @mem_of_captured found body
  simp only [rawBodies, List.mem_append, List.mem_singleton] at hmem ⊢
  grind

end MachineState

namespace TraitConfig

variable (config : TraitConfig)

theorem rawBodies_push (value : Value) :
    (config.push value).rawBodies ⊆ config.rawBodies ++ value.rawBodies := by
  intro body hmem
  simp only [push, rawBodies, List.flatMap_append, List.flatMap_singleton, List.mem_append]
    at hmem ⊢
  grind

theorem rawBodies_insert (key : String) (value : Value) :
    (config.insert key value).rawBodies ⊆ config.rawBodies ++ value.rawBodies := by
  have hinsert := Table.flatMap_insert_subset (fun entry => entry.2.rawBodies) key value
    config.config
  intro body hmem
  have hone := @hinsert body
  simp only [insert, rawBodies, Table.gather, List.mem_append] at hmem hone ⊢
  grind

theorem rawBodies_addEntries (entries : List ObjectEntry) :
    (entries.foldl addEntry config).rawBodies ⊆
      config.rawBodies ++ entries.flatMap ObjectEntry.rawBodies := by
  induction entries generalizing config with
  | nil => exact List.subset_append_left _ _
  | cons entry rest ih =>
      have hentry : (config.addEntry entry).rawBodies ⊆ config.rawBodies ++ entry.rawBodies := by
        cases entry with
        | field key value => exact config.rawBodies_insert key value
        | spread value => exact config.rawBodies_push (.spread value)
      intro body hmem
      have hone := @hentry body
      have hrest := ih (config.addEntry entry) hmem
      simp only [List.flatMap_cons, List.mem_append] at hone hrest ⊢
      grind

end TraitConfig

/-! ## Trees -/

mutual

/-- The bodies of a node and of all that it holds. -/
def Node.rawBodies : Node → List RawBody
  | ⟨kind, _, _, children, properties, spreads, directives, traits, _, _⟩ =>
      kind.rawBodies ++ (properties.gather Value.rawBodies ++ spreads.flatMap Value.rawBodies ++
        Directive.rawBodiesOfAll directives ++ traits.gather TraitConfig.rawBodies ++
        Node.rawBodiesOfAll children)

def Node.rawBodiesOfAll : List Node → List RawBody
  | [] => []
  | node :: rest => node.rawBodies ++ Node.rawBodiesOfAll rest

def Directive.rawBodies : Directive → List RawBody
  | .trait _ config | .generic _ config | .setting _ config | .topic _ _ config =>
      config.rawBodies
  | .state table | .bindings table => table.gather Value.rawBodies
  | .loop _ _ _ body | .whileLoop _ body | .conditional _ body none => Node.rawBodiesOfAll body
  | .conditional _ body (some elseBody) =>
      Node.rawBodiesOfAll body ++ Node.rawBodiesOfAll elseBody
  | .imports _ => []
  | .lifecycle _ _ body => [⟨body, false⟩]

def Directive.rawBodiesOfAll : List Directive → List RawBody
  | [] => []
  | directive :: rest => directive.rawBodies ++ Directive.rawBodiesOfAll rest

end

theorem Node.rawBodiesOfAll_eq (nodes : List Node) :
    Node.rawBodiesOfAll nodes = nodes.flatMap Node.rawBodies := by
  induction nodes with
  | nil => rfl
  | cons node rest ih => rw [rawBodiesOfAll, ih, List.flatMap_cons]

theorem Directive.rawBodiesOfAll_eq (directives : List Directive) :
    Directive.rawBodiesOfAll directives = directives.flatMap Directive.rawBodies := by
  induction directives with
  | nil => rfl
  | cons directive rest ih => rw [rawBodiesOfAll, ih, List.flatMap_cons]

theorem Directive.rawBodies_conditional (condition : String) (body : List Node)
    (elseBody : Option (List Node)) : (Directive.conditional condition body elseBody).rawBodies =
      body.flatMap Node.rawBodies ++ (elseBody.getD []).flatMap Node.rawBodies := by
  cases elseBody with
  | none => simp [rawBodies, Node.rawBodiesOfAll_eq]
  | some elseBody => simp [rawBodies, Node.rawBodiesOfAll_eq]

namespace Node

variable (node : Node)

/-- The bodies of what a node holds, whatever the node itself is. -/
def heldBodies : List RawBody :=
  node.properties.gather Value.rawBodies ++ node.spreads.flatMap Value.rawBodies ++
    node.directives.flatMap Directive.rawBodies ++ node.traits.gather TraitConfig.rawBodies ++
    node.children.flatMap Node.rawBodies

theorem rawBodies_eq : node.rawBodies = node.kind.rawBodies ++ node.heldBodies := by
  obtain ⟨kind, name, id, children, properties, spreads, directives, traits, exported, loc⟩ := node
  rw [rawBodies, Directive.rawBodiesOfAll_eq, Node.rawBodiesOfAll_eq]
  rfl

theorem rawBodies_ofKind (kind : NodeKind) (loc : Location) :
    (ofKind kind loc).rawBodies = kind.rawBodies :=
  List.append_nil _

theorem rawBodies_withKind (kind : NodeKind) :
    ({ node with kind := kind }).rawBodies ⊆ node.rawBodies ++ kind.rawBodies := by
  have hheld : ({ node with kind := kind }).heldBodies = node.heldBodies := rfl
  intro body hmem
  rw [rawBodies_eq, hheld] at hmem
  rw [rawBodies_eq]
  simp only [List.mem_append] at hmem ⊢
  grind

theorem rawBodies_subset_of_child {node child : Node} (h : child ∈ node.children) :
    child.rawBodies ⊆ node.rawBodies := by
  intro body hmem
  rw [rawBodies_eq]
  exact List.mem_append_right _ (List.mem_append_right _ (List.mem_flatMap.mpr ⟨child, h, hmem⟩))

/-- What a node of the same kind holds more is what it has more bodies from. -/
theorem rawBodies_subset_append {node other : Node} {more : List RawBody}
    (hkind : other.kind = node.kind) (hheld : other.heldBodies ⊆ node.heldBodies ++ more) :
    other.rawBodies ⊆ node.rawBodies ++ more := by
  rw [rawBodies_eq, rawBodies_eq node, hkind, List.append_assoc]
  exact List.append_subset.mpr ⟨List.subset_append_left _ _,
    List.subset_append_of_subset_right _ hheld⟩

theorem rawBodies_property (key : String) (value : Value) :
    ({ node with properties := node.properties.insert key value }).rawBodies ⊆
      node.rawBodies ++ value.rawBodies := by
  refine rawBodies_subset_append rfl fun body hmem => ?_
  have hone := @Table.flatMap_insert_subset _ _ (fun entry => entry.2.rawBodies) key value
    node.properties body
  simp only [heldBodies, Table.gather, List.mem_append] at hmem hone ⊢
  grind

theorem rawBodies_spread (value : Value) :
    ({ node with spreads := node.spreads ++ [value] }).rawBodies ⊆
      node.rawBodies ++ value.rawBodies := by
  refine rawBodies_subset_append rfl fun body hmem => ?_
  simp only [heldBodies, List.flatMap_append, List.flatMap_singleton, List.mem_append] at hmem ⊢
  grind

theorem rawBodies_child (child : Node) :
    ({ node with children := node.children ++ [child] }).rawBodies ⊆
      node.rawBodies ++ child.rawBodies := by
  refine rawBodies_subset_append rfl fun body hmem => ?_
  simp only [heldBodies, List.flatMap_append, List.flatMap_singleton, List.mem_append] at hmem ⊢
  grind

theorem rawBodies_attach (directive : Directive) :
    (node.attach directive).rawBodies ⊆ node.rawBodies ++ directive.rawBodies := by
  refine rawBodies_subset_append (node.kind_attach directive) fun body hmem => ?_
  cases directive with
  | trait name config | generic name config =>
      have hone := @Table.flatMap_insert_subset _ _ (fun entry => entry.2.rawBodies) name config
        node.traits body
      simp only [attach, heldBodies, Directive.rawBodies, Table.gather, List.mem_append]
        at hmem hone ⊢
      grind
  | lifecycle | state | bindings | loop | whileLoop | conditional | imports | setting | topic =>
      simp only [attach, heldBodies, List.flatMap_append, List.flatMap_singleton, List.mem_append]
        at hmem ⊢
      grind

end Node

/-! ## Directives in front of elements -/

namespace Parser

/-- The bodies of what stands in front of an element. -/
def leadingBodies (found : Table TraitConfig × List Directive) : List RawBody :=
  found.1.gather TraitConfig.rawBodies ++ found.2.flatMap Directive.rawBodies

theorem leadingBodies_add (found : Table TraitConfig × List Directive) (directive : Directive) :
    leadingBodies (addLeading found directive) ⊆ leadingBodies found ++ directive.rawBodies := by
  intro body hmem
  cases directive with
  | trait name config | generic name config =>
      have hone := @Table.flatMap_insertIfNew_subset _ _ (fun entry => entry.2.rawBodies) name
        config found.1 body
      simp only [addLeading, leadingBodies, Directive.rawBodies, Table.gather, List.mem_append]
        at hmem hone ⊢
      grind
  | lifecycle | state | bindings | loop | whileLoop | conditional | imports | setting | topic =>
      simp only [addLeading, leadingBodies, List.flatMap_append, List.flatMap_singleton,
        List.mem_append] at hmem ⊢
      grind

theorem leadingBodies_foldl (found : Table TraitConfig × List Directive)
    (leading : List Directive) : leadingBodies (leading.foldl addLeading found) ⊆
      leadingBodies found ++ leading.flatMap Directive.rawBodies := by
  induction leading generalizing found with
  | nil => exact List.subset_append_left _ _
  | cons first rest ih =>
      intro body hmem
      have hfirst := @leadingBodies_add found first body
      have hrest := ih (addLeading found first) hmem
      simp only [List.flatMap_cons, List.mem_append] at hfirst hrest ⊢
      grind

theorem rawBodies_attachLeading (node : Node) (leading : List Directive) :
    (node.attachLeading leading).rawBodies ⊆
      node.rawBodies ++ leading.flatMap Directive.rawBodies := by
  intro body hmem
  have hone := @leadingBodies_foldl (node.traits, []) leading body
  rw [attachLeading_eq, Node.rawBodies_eq] at hmem
  rw [Node.rawBodies_eq]
  simp only [leadingBodies, Node.heldBodies, List.flatMap_nil, List.flatMap_append,
    List.append_nil, List.mem_append] at hmem hone ⊢
  grind

end Parser

open Token (Matches Unmatched Between Trails)

/-- Where a body comes from; `reports` tells which errors have been reported. -/
inductive RawBody.Quoted (source : List Char) (reports : Code → Prop) (body : RawBody) : Prop
  /-- What stands between an opening brace and the one that matches it. -/
  | closed {front tokens inside back : List Token} {opening closing : Token} {text : List Char}
      (htokens : tokenize source = front ++ opening :: tokens)
      (hopening : opening.kind = .leftBrace) (hmatches : Matches tokens inside closing back)
      (htext : Between source opening closing text)
      (hbody : body.text = String.ofList (Text.trim text))
  /-- The rest of the source behind an opening brace that no other one matches. -/
  | unclosed {front tokens : List Token} {opening : Token} {text : List Char}
      (htokens : tokenize source = front ++ opening :: tokens)
      (hopening : opening.kind = .leftBrace) (hunmatched : Unmatched tokens)
      (htext : Trails source opening text)
      (hbody : body.text = String.ofList (Text.trim text)) (hreports : reports .missingBrace)
  /-- No block is written where the body should stand. -/
  | absent (hbody : body.text = "") (hreports : body.needed = true → reports .unexpectedToken)

namespace RawBody

variable {source : List Char} {reports reports' : Code → Prop} {body : RawBody}

theorem Quoted.mono (h : body.Quoted source reports)
    (himp : ∀ code, reports code → reports' code) : body.Quoted source reports' := by
  cases h with
  | closed htokens hopening hmatches htext hbody =>
      exact .closed htokens hopening hmatches htext hbody
  | unclosed htokens hopening hunmatched htext hbody hreports =>
      exact .unclosed htokens hopening hunmatched htext hbody (himp _ hreports)
  | absent hbody hreports => exact .absent hbody fun hneeded => himp _ (hreports hneeded)

/-- What is quoted may be a body that is not needed. -/
theorem Quoted.as {text : String} (h : Quoted source reports ⟨text, true⟩) (needed : Bool) :
    Quoted source reports ⟨text, needed⟩ := by
  cases h with
  | closed htokens hopening hmatches htext hbody =>
      exact .closed htokens hopening hmatches htext hbody
  | unclosed htokens hopening hunmatched htext hbody hreports =>
      exact .unclosed htokens hopening hunmatched htext hbody hreports
  | absent hbody hreports => exact .absent hbody fun _ => hreports rfl

end RawBody

namespace Parser

/-! ## What is quoted -/

/-- The body is quoted, with what is reported by now. -/
def QuotedIn (source : List Char) (body : RawBody) (state : State) : Prop :=
  body.Quoted source (state.log.Reports ·)

theorem lasting_quotedIn (source : List Char) : Lasting (QuotedIn source) := by
  intro body state next hreaches hquoted
  exact hquoted.mono fun code => lasting_reports code body state next hreaches

/-- All the bodies are quoted. -/
def AllQuoted (source : List Char) (bodies : List RawBody) (state : State) : Prop :=
  ∀ body ∈ bodies, QuotedIn source body state

namespace AllQuoted

variable {source : List Char} {bodies others : List RawBody} {state next : State}

theorem nil : AllQuoted source [] state :=
  List.forall_mem_nil _

theorem subset (h : AllQuoted source bodies state) (hsubset : others ⊆ bodies) :
    AllQuoted source others state :=
  fun body hmem => h body (hsubset hmem)

theorem later (h : AllQuoted source bodies state) (hreaches : Reaches state next) :
    AllQuoted source bodies next :=
  fun body hmem => lasting_quotedIn source body state next hreaches (h body hmem)

theorem append (h : AllQuoted source bodies state) (h' : AllQuoted source others state) :
    AllQuoted source (bodies ++ others) state :=
  List.forall_mem_append.mpr ⟨h, h'⟩

end AllQuoted

variable {α β : Type} {source : List Char}

theorem lasting_allQuoted (parts : α → List RawBody) :
    Lasting fun value => AllQuoted source (parts value) :=
  (lasting_quotedIn source).parts parts

/-! ## What parsers quote -/

/-- If a parser starts where the bodies that are given are quoted, then it ends where those in its
result are. -/
def Quotes (source : List Char) (given : List RawBody) (p : Parser α)
    (parts : α → List RawBody) : Prop :=
  ∀ past, AllQuoted source given past →
    Lays source past p fun value => AllQuoted source (parts value)

namespace Quotes

variable {given others : List RawBody} {p q : Parser α} {f : α → Parser β}
  {parts : α → List RawBody} {parts' : β → List RawBody}

theorem pure {value : α} (h : parts value ⊆ given) : Quotes source given (pure value) parts :=
  fun _ hgiven => (lasting_allQuoted parts).lays (hgiven.subset h)

/-- A result with the bodies that are given. -/
theorem give {value : α} (h : parts value = given) :
    Quotes source given (Pure.pure value) parts :=
  .pure (h ▸ List.Subset.refl _)

theorem throw {fault : Fault} : Quotes source given (throw fault) parts :=
  fun _ _ => laysAt_throw

/-- More may be given than is used. -/
theorem of_subset (h : Quotes source others p parts) (hsubset : others ⊆ given) :
    Quotes source given p parts :=
  fun past hgiven => h past (hgiven.subset hsubset)

theorem mono (h : Quotes source given p parts) {weaker : α → List RawBody}
    (hsubset : ∀ value, weaker value ⊆ parts value) : Quotes source given p weaker :=
  fun past hgiven => (h past hgiven).mono fun value _ _ hmade => hmade.subset (hsubset value)

theorem bind (hp : Quotes source given p parts)
    (hf : ∀ value, Quotes source (parts value) (f value) parts') :
    Quotes source given (p >>= f) parts' :=
  fun past hgiven => (hp past hgiven).bind fun value now _ hmade => hf value now hmade

/-- What is not touched meanwhile stays in front. -/
theorem behind (h : Quotes source given p parts) (kept : List RawBody) :
    Quotes source (kept ++ given) p fun value => kept ++ parts value := by
  intro past hall
  have hgiven := hall.subset (List.subset_append_right kept given)
  have hkept := hall.subset (List.subset_append_left kept given)
  exact (h past hgiven).mono fun _ _ hreaches hmade => (hkept.later hreaches).append hmade

/-- What is not touched meanwhile stays behind. -/
theorem ahead (h : Quotes source given p parts) (kept : List RawBody) :
    Quotes source (given ++ kept) p fun value => parts value ++ kept :=
  ((h.behind kept).of_subset List.perm_append_comm.subset).mono fun _ =>
    List.perm_append_comm.subset

/-- What a parser reads by itself is put beside what is given. -/
theorem read (hp : Quotes source [] p parts)
    (hf : ∀ value, Quotes source (given ++ parts value) (f value) parts') :
    Quotes source given (p >>= f) parts' := by
  have hbeside := hp.behind given
  rw [List.append_nil] at hbeside
  exact hbeside.bind hf

/-- Where a parser is steady, no more needs to be known of it. -/
theorem before (hp : ∀ {bound depth : Nat}, Steady bound depth p)
    (hf : ∀ value, Quotes source given (f value) parts') :
    Quotes source given (p >>= f) parts' :=
  fun past hgiven => .before hp fun value => hf value past hgiven

theorem ite {c : Prop} [Decidable c] (hp : c → Quotes source given p parts)
    (hq : ¬c → Quotes source given q parts) : Quotes source given (if c then p else q) parts :=
  fun past hgiven => .ite (fun h => hp h past hgiven) fun h => hq h past hgiven

theorem lower (count : Nat) : Quotes source given (lower count) fun _ => given := by
  cases count with
  | zero => exact throw
  | succ count => exact .pure (List.Subset.refl _)

end Quotes

/-! ## Loops and levels -/

/-- What a turn of a loop holds: the result of the loop, or what the loop goes on with. -/
def turnBodies (done yield : β → List RawBody) : ForInStep β → List RawBody
  | .done value => done value
  | .yield value => yield value

namespace Quotes

variable {given : List RawBody} {parts result : β → List RawBody} {start : β}

theorem iterate {step : β → Parser (ForInStep β)}
    (hturn : ∀ value, Quotes source (parts value) (step value) (turnBodies result parts)) :
    Quotes source (parts start) (iterate start step) result := by
  intro past hgiven
  refine .iterate (lasting_allQuoted parts) hgiven fun value now _ hvalue => ?_
  refine (hturn value now hvalue).mono fun turned _ _ hturned => ?_
  cases turned with
  | done value => exact hturned
  | yield value => exact hturned

/-- What each item of a block adds to the items before it, the block does. -/
theorem braced {item : β → Parser β}
    (hitem : ∀ value, Quotes source (parts value) (item value) parts) :
    Quotes source (parts start) (braced start item) parts :=
  fun _ hgiven => .braced (lasting_allQuoted parts) hgiven fun value now _ hvalue =>
    hitem value now hvalue

theorem deeper {refused body : Parser β} (hrefused : Quotes source given refused parts)
    (hbody : Quotes source given body parts) : Quotes source given (deeper refused body) parts :=
  fun past hgiven => .deeper (lasting_allQuoted parts) (hrefused past hgiven) (hbody past hgiven)

/-- What does not belong here is skipped. -/
theorem skipped {message : String} {value : β} (h : parts value = given) :
    Quotes source given (do
      unexpected message
      synchronize
      return value) parts :=
  .before (resting_unexpected message).steady fun _ => .before steady_synchronize fun _ => .give h

end Quotes

/-! ## What is captured -/

theorem returns_unexpected {context : Context} {state : State} {place : String}
    (hended : Ended state.ahead) : Returns (unexpected place) context state fun _ next =>
      Same state next ∧ next.log.Reports .unexpectedToken := by
  rw [unexpected, returns_bind, returns_current hended]
  exact returns_reportError hended

theorem returns_captureBlock_absent {options : ParseOptions} {state : State}
    (hended : Ended state.ahead) (hbrace : state.token.kind ≠ .leftBrace) :
    Returns captureBlock ⟨source, options⟩ state fun found next =>
      found = none ∧ next.log.Reports .unexpectedToken := by
  rw [captureBlock, returns_bind, returns_current hended, if_neg hbrace, returns_bind]
  exact (returns_unexpected hended).mono fun _ _ hnext => returns_pure.mpr ⟨rfl, hnext.2⟩

theorem quotes_captureBlock : Quotes source [] captureBlock fun found =>
    [⟨found.getD "", true⟩] := by
  intro past _ options state hstands _ _
  obtain ⟨tokens, hvisible⟩ := exists_visibleFrom hstands.ended 0
  have hvisible : state.visibleFrom 0 = state.token :: tokens := hvisible
  have hkeeps := steady_captureBlock ⟨source, options⟩ state hstands.within
  suffices hquoted : Returns captureBlock ⟨source, options⟩ state fun found next =>
      QuotedIn source ⟨found.getD "", true⟩ next by
    obtain ⟨found, next, hrun, hnext⟩ := hkeeps
    rw [returns_of_run hrun] at hquoted
    exact ((returns_of_run hrun).mpr ⟨hstands.keeps hnext, hnext.reaches,
      List.forall_mem_singleton.mpr hquoted⟩).leads
  by_cases hbrace : state.token.kind = .leftBrace
  · obtain ⟨front, htokens⟩ := hstands.exists_tokens hvisible
    refine (returns_captureBlock hstands hvisible hbrace).mono ?_
    rintro _ next ⟨text, rfl, hcaptured⟩
    cases hcaptured with
    | closed hmatches htext => exact .closed htokens hbrace hmatches htext rfl
    | unclosed hunmatched htext _ hnext =>
        refine .unclosed htokens hbrace hunmatched htext rfl ?_
        rw [hnext]
        exact Log.reports_push rfl rfl
  · refine (returns_captureBlock_absent hstands.ended hbrace).mono ?_
    rintro _ next ⟨rfl, hreports⟩
    exact .absent rfl fun _ => hreports

/-- The text of a block, whether or not it is needed. -/
theorem quotes_blockText (needed : Bool) : Quotes source [] blockText fun text =>
    [⟨text, needed⟩] := by
  refine quotes_captureBlock.bind fun found past hgiven => ?_
  refine (lasting_allQuoted fun text => [⟨text, needed⟩]).lays ?_
  rw [AllQuoted, List.forall_mem_singleton] at hgiven ⊢
  exact hgiven.as needed

/-- Where there is no name, an error says so. -/
theorem quotes_expectName (what : String) : Quotes source [] (expectName what) fun found =>
    if found.isSome then [] else [⟨"", true⟩] := by
  refine .before resting_current.steady fun token => ?_
  split
  · exact .before steady_advance fun _ => .give rfl
  · exact .before steady_advance fun _ => .give rfl
  · exact .before (resting_reportUnterminated token).steady fun _ =>
      .before steady_advance fun _ => .give rfl
  · intro past _ options state hstands _ _
    have hreport : Returns (unexpected s!"where a {what} was expected") ⟨source, options⟩ state
        fun _ next => Same state next ∧ next.log.Reports .unexpectedToken :=
      returns_unexpected hstands.ended
    refine hreport.leads.bind fun _ next ⟨hsame, hreports⟩ => ?_
    refine leads_pure ⟨hstands.keeps hsame.keeps, hsame.reaches, ?_⟩
    exact List.forall_mem_singleton.mpr (.absent rfl fun _ => hreports)

end Parser

end SceneLang
