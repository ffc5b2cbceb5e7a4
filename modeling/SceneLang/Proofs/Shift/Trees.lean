import Mathlib.Data.List.Basic
import SceneLang.Parser.Element
import SceneLang.Proofs.Token.Steps

/-!
# Trees and tokens further down

A text that stands behind another one is read to the same tree further down: its lines and
offsets are counted from where it starts, and its interpolations from those before it.  `move`
says of all that a parse handles how it looks there.  What holds neither places nor
interpolations looks the same.

The scanner reads a text further down to the same tokens in other places: no step looks at the
place where the cursor stands.
-/

namespace SceneLang

/-- How much stands before a text: lines, bytes, and interpolations. -/
structure Shift where
  lines : Nat
  bytes : Nat
  ids : Nat

class Movable (α : Type) where
  move : Shift → α → α

open Movable (move)

/-- What looks the same wherever it stands. -/
class Fixed (α : Type) [Movable α] : Prop where
  move_eq : ∀ (shift : Shift) (a : α), move shift a = a

open Fixed (move_eq)

/-! ## Plain data -/

section

variable {α β : Type} [Movable α] [Movable β]

instance : Movable Unit := ⟨fun _ a => a⟩
instance : Movable Bool := ⟨fun _ a => a⟩
instance : Movable Nat := ⟨fun _ a => a⟩
instance : Movable Char := ⟨fun _ a => a⟩
instance : Movable String := ⟨fun _ a => a⟩
instance : Movable TokenKind := ⟨fun _ a => a⟩
instance : Movable UnaryOp := ⟨fun _ a => a⟩
instance : Movable ArrowParam := ⟨fun _ a => a⟩
instance : Movable ImportName := ⟨fun _ a => a⟩
instance : Movable ImportDecl := ⟨fun _ a => a⟩
instance : Movable Transition := ⟨fun _ a => a⟩
instance : Movable LogicFunction := ⟨fun _ a => a⟩
instance : Movable EventHandler := ⟨fun _ a => a⟩

instance : Fixed Unit := ⟨fun _ _ => rfl⟩
instance : Fixed Bool := ⟨fun _ _ => rfl⟩
instance : Fixed Nat := ⟨fun _ _ => rfl⟩
instance : Fixed Char := ⟨fun _ _ => rfl⟩
instance : Fixed String := ⟨fun _ _ => rfl⟩
instance : Fixed TokenKind := ⟨fun _ _ => rfl⟩
instance : Fixed UnaryOp := ⟨fun _ _ => rfl⟩
instance : Fixed ArrowParam := ⟨fun _ _ => rfl⟩
instance : Fixed ImportName := ⟨fun _ _ => rfl⟩
instance : Fixed ImportDecl := ⟨fun _ _ => rfl⟩
instance : Fixed Transition := ⟨fun _ _ => rfl⟩

instance : Movable (List α) := ⟨fun shift => List.map (move shift)⟩
instance : Movable (Option α) := ⟨fun shift => Option.map (move shift)⟩
instance : Movable (α × β) := ⟨fun shift a => (move shift a.1, move shift a.2)⟩

instance : Movable (ForInStep α) where
  move shift
    | .done a => .done (move shift a)
    | .yield a => .yield (move shift a)

instance [Fixed α] : Fixed (List α) where
  move_eq shift list := by
    have hmove : (move shift : α → α) = id := funext (move_eq shift)
    change List.map (move shift) list = list
    rw [hmove, List.map_id]

instance [Fixed α] : Fixed (Option α) where
  move_eq shift found := by
    cases found with
    | none => rfl
    | some a => exact congrArg some (move_eq shift a)

end

/-! ## Places -/

instance : Movable Position := ⟨fun shift p => ⟨p.line + shift.lines, p.column⟩⟩
instance : Movable Location := ⟨fun shift a => ⟨move shift a.start, move shift a.stop⟩⟩
instance : Movable Span := ⟨fun shift a => ⟨a.start + shift.bytes, a.stop + shift.bytes⟩⟩

instance : Movable Token where
  move shift token :=
    { token with span := move shift token.span, position := move shift token.position }

/-! ## Values -/

/-- The identifier of the interpolation of this number. -/
def interpolationName (number : Nat) : String :=
  s!"expr_{number}"

/-- The number of an interpolation, from its identifier. -/
def interpolationNumber (id : String) : Nat :=
  Nat.ofDigitChars 10 (id.toList.drop 5) 0

theorem interpolationNumber_name (number : Nat) :
    interpolationNumber (interpolationName number) = number := by
  have htext : (interpolationName number).toList =
      ['e', 'x', 'p', 'r', '_'] ++ Nat.toDigits 10 number := by
    simp [interpolationName, toString]
  rw [interpolationNumber, htext]
  exact Nat.ofDigitChars_ten_toDigits

theorem interpolationName_injective {a b : Nat} (h : interpolationName a = interpolationName b) :
    a = b := by
  rw [← interpolationNumber_name a, h, interpolationNumber_name]

namespace Value

mutual

/-- The value with its interpolations counted from a number on. -/
def renumber (ids : Nat) : Value → Value
  | .array items => .array (renumberItems ids items)
  | .object entries => .object (renumberEntries ids entries)
  | .interpolation id expression =>
      .interpolation (interpolationName (interpolationNumber id + ids)) expression
  | .binary op left right => .binary op (left.renumber ids) (right.renumber ids)
  | .unary op operand => .unary op (operand.renumber ids)
  | .ternary condition thenBranch elseBranch =>
      .ternary (condition.renumber ids) (thenBranch.renumber ids) (elseBranch.renumber ids)
  | .spread inner => .spread (inner.renumber ids)
  | .call callee args => .call (callee.renumber ids) (renumberItems ids args)
  | .member target property => .member (target.renumber ids) property
  | .index target key => .index (target.renumber ids) (key.renumber ids)
  | .arrow params body => .arrow params (renumberBody ids body)
  | .string text => .string text
  | .number value unit raw => .number value unit raw
  | .bool value => .bool value
  | .null => .null
  | .reference name => .reference name

def renumberItems (ids : Nat) : List Value → List Value
  | [] => []
  | item :: rest => item.renumber ids :: renumberItems ids rest

def renumberEntries (ids : Nat) : List ObjectEntry → List ObjectEntry
  | [] => []
  | .field key value :: rest => .field key (value.renumber ids) :: renumberEntries ids rest
  | .spread value :: rest => .spread (value.renumber ids) :: renumberEntries ids rest

def renumberBody (ids : Nat) : ArrowBody → ArrowBody
  | .expr value => .expr (value.renumber ids)
  | .block text => .block text

end

end Value

instance : Movable Value := ⟨fun shift value => value.renumber shift.ids⟩

instance : Movable ObjectEntry where
  move shift
    | .field key value => .field key (move shift value)
    | .spread value => .spread (move shift value)

theorem Value.renumberItems_eq (shift : Shift) (items : List Value) :
    renumberItems shift.ids items = move shift items := by
  induction items with
  | nil => rfl
  | cons item rest ih => exact congrArg (item.renumber shift.ids :: ·) ih

theorem Value.renumberEntries_eq (shift : Shift) (entries : List ObjectEntry) :
    renumberEntries shift.ids entries = move shift entries := by
  induction entries with
  | nil => rfl
  | cons entry rest ih => cases entry <;> exact congrArg (_ :: ·) ih

/-! ## Nodes -/

instance : Movable TraitConfig :=
  ⟨fun shift config => ⟨move shift config.args, move shift config.config⟩⟩

instance : Movable LogicBlock :=
  ⟨fun shift block => { block with values := move shift block.values }⟩

instance : Movable MachineState :=
  ⟨fun shift state => { state with properties := move shift state.properties }⟩

instance : Movable StateMachine :=
  ⟨fun shift machine => { machine with states := move shift machine.states }⟩

instance : Movable NodeKind where
  move shift
    | .logic block => .logic (move shift block)
    | .stateMachine machine => .stateMachine (move shift machine)
    | kind => kind

mutual

def Node.moved (shift : Shift) : Node → Node
  | ⟨kind, name, id, children, properties, spreads, directives, traits, exported, loc⟩ =>
      ⟨move shift kind, name, id, Node.movedAll shift children, move shift properties,
        move shift spreads, Directive.movedAll shift directives, move shift traits, exported,
        move shift loc⟩

def Node.movedAll (shift : Shift) : List Node → List Node
  | [] => []
  | node :: rest => node.moved shift :: Node.movedAll shift rest

def Directive.moved (shift : Shift) : Directive → Directive
  | .trait name config => .trait name (move shift config)
  | .generic name config => .generic name (move shift config)
  | .lifecycle hook params body => .lifecycle hook params body
  | .state properties => .state (move shift properties)
  | .bindings table => .bindings (move shift table)
  | .loop form item iterable body => .loop form item iterable (Node.movedAll shift body)
  | .whileLoop condition body => .whileLoop condition (Node.movedAll shift body)
  | .conditional condition body none => .conditional condition (Node.movedAll shift body) none
  | .conditional condition body (some elseBody) =>
      .conditional condition (Node.movedAll shift body) (some (Node.movedAll shift elseBody))
  | .imports decl => .imports decl
  | .setting which config => .setting which (move shift config)
  | .topic which subject config => .topic which subject (move shift config)

def Directive.movedAll (shift : Shift) : List Directive → List Directive
  | [] => []
  | directive :: rest => directive.moved shift :: Directive.movedAll shift rest

end

instance : Movable Node := ⟨Node.moved⟩
instance : Movable Directive := ⟨Directive.moved⟩

theorem Node.movedAll_eq (shift : Shift) (nodes : List Node) :
    Node.movedAll shift nodes = move shift nodes := by
  induction nodes with
  | nil => rfl
  | cons node rest ih => exact congrArg (node.moved shift :: ·) ih

theorem Directive.movedAll_eq (shift : Shift) (directives : List Directive) :
    Directive.movedAll shift directives = move shift directives := by
  induction directives with
  | nil => rfl
  | cons directive rest ih => exact congrArg (directive.moved shift :: ·) ih

/-- The fields of a node further down. -/
theorem Node.move_eq (shift : Shift) (node : Node) :
    move shift node =
      { kind := move shift node.kind
        name := node.name
        id := node.id
        children := move shift node.children
        properties := move shift node.properties
        spreads := move shift node.spreads
        directives := move shift node.directives
        traits := move shift node.traits
        exported := node.exported
        loc := move shift node.loc } := by
  obtain ⟨kind, name, id, children, properties, spreads, directives, traits, exported, loc⟩ := node
  rw [← movedAll_eq, ← Directive.movedAll_eq]
  rfl

instance : Movable PlacedDirective where
  move shift placed :=
    ⟨move shift placed.directive, move shift placed.span, move shift placed.position⟩

/-! ## Diagnostics -/

instance : Movable Label := ⟨fun shift label => { label with span := move shift label.span }⟩

instance : Movable QuickFix where
  move shift fix :=
    { fix with span := move shift fix.span, position := move shift fix.position }

instance : Movable Diagnostic where
  move shift d :=
    { d with
      span := move shift d.span
      position := move shift d.position
      fixes := move shift d.fixes
      labels := move shift d.labels }

/-! ## Tables and lists -/

section

variable {α β : Type} [Movable α] [Movable β] (shift : Shift)

theorem move_insert (key : String) (value : α) (table : Table α) :
    move shift (table.insert key value) =
      Table.insert key (move shift value) (move shift table) := by
  induction table with
  | nil => rfl
  | cons entry rest ih =>
      have hcons (first : String × α) (list : Table α) :
          move shift (first :: list) = (first.1, move shift first.2) :: move shift list := rfl
      rw [hcons, Table.insert, Table.insert]
      split
      · rfl
      split
      · rfl
      · rw [hcons, ih]

theorem move_append (front back : List α) :
    move shift (front ++ back) = move shift front ++ move shift back :=
  List.map_append

theorem move_reverse (list : List α) : move shift list.reverse = (move shift list).reverse :=
  List.map_reverse

theorem find?_move (key : String) (table : Table α) :
    Table.find? key (move shift table) = move shift (Table.find? key table) := by
  induction table with
  | nil => rfl
  | cons entry rest ih =>
      change Table.find? key ((entry.1, move shift entry.2) :: move shift rest) = _
      rw [Table.find?, Table.find?, ih]
      split <;> rfl

theorem contains_move (key : String) (table : Table α) :
    Table.contains (move shift table) key = Table.contains table key := by
  rw [Table.contains, Table.contains, find?_move]
  cases Table.find? key table <;> rfl

theorem move_insertIfNew (key : String) (value : α) (table : Table α) :
    move shift (table.insertIfNew key value) =
      Table.insertIfNew key (move shift value) (move shift table) := by
  rw [Table.insertIfNew, Table.insertIfNew, contains_move, ← move_insert]
  split <;> rfl

end

/-! ## Nodes in the making -/

/-- While a node is read its place is not known yet; all else is the same further down. -/
def Draft (shift : Shift) (node other : Node) : Prop :=
  ∃ loc, node = { move shift other with loc := loc }

namespace Draft

variable {shift : Shift} {node other : Node}

theorem of_eq (h : node = move shift other) : Draft shift node other :=
  ⟨(move shift other).loc, by rw [h, Node.move_eq]⟩

theorem kind_eq (h : Draft shift node other) : node.kind = move shift other.kind := by
  obtain ⟨loc, rfl⟩ := h
  rw [Node.move_eq]

theorem name_eq (h : Draft shift node other) : node.name = other.name := by
  obtain ⟨loc, rfl⟩ := h
  rw [Node.move_eq]

theorem children_eq (h : Draft shift node other) : node.children = move shift other.children := by
  obtain ⟨loc, rfl⟩ := h
  rw [Node.move_eq]

theorem properties_eq (h : Draft shift node other) :
    node.properties = move shift other.properties := by
  obtain ⟨loc, rfl⟩ := h
  rw [Node.move_eq]

theorem spreads_eq (h : Draft shift node other) : node.spreads = move shift other.spreads := by
  obtain ⟨loc, rfl⟩ := h
  rw [Node.move_eq]

theorem directives_eq (h : Draft shift node other) :
    node.directives = move shift other.directives := by
  obtain ⟨loc, rfl⟩ := h
  rw [Node.move_eq]

theorem traits_eq (h : Draft shift node other) : node.traits = move shift other.traits := by
  obtain ⟨loc, rfl⟩ := h
  rw [Node.move_eq]

theorem with_kind (h : Draft shift node other) (kind : NodeKind) :
    Draft shift { node with kind := move shift kind } { other with kind := kind } := by
  obtain ⟨loc, rfl⟩ := h
  exact ⟨loc, by rw [Node.move_eq, Node.move_eq]⟩

theorem with_name (h : Draft shift node other) (name : Option String) :
    Draft shift { node with name := name } { other with name := name } := by
  obtain ⟨loc, rfl⟩ := h
  exact ⟨loc, by rw [Node.move_eq, Node.move_eq]⟩

theorem with_id (h : Draft shift node other) (id : Option String) :
    Draft shift { node with id := id } { other with id := id } := by
  obtain ⟨loc, rfl⟩ := h
  exact ⟨loc, by rw [Node.move_eq, Node.move_eq]⟩

theorem with_property (h : Draft shift node other) (key : String) (value : Value) :
    Draft shift { node with properties := node.properties.insert key (move shift value) }
      { other with properties := other.properties.insert key value } := by
  obtain ⟨loc, rfl⟩ := h
  exact ⟨loc, by rw [Node.move_eq, Node.move_eq, move_insert]⟩

theorem with_spread (h : Draft shift node other) (value : Value) :
    Draft shift { node with spreads := node.spreads ++ [move shift value] }
      { other with spreads := other.spreads ++ [value] } := by
  obtain ⟨loc, rfl⟩ := h
  refine ⟨loc, ?_⟩
  rw [Node.move_eq, Node.move_eq, move_append]
  rfl

theorem with_child (h : Draft shift node other) (child : Node) :
    Draft shift { node with children := node.children ++ [move shift child] }
      { other with children := other.children ++ [child] } := by
  obtain ⟨loc, rfl⟩ := h
  refine ⟨loc, ?_⟩
  rw [Node.move_eq shift other, Node.move_eq shift { other with children := _ }, move_append]
  rfl

theorem with_directive (h : Draft shift node other) (directive : Directive) :
    Draft shift { node with directives := node.directives ++ [move shift directive] }
      { other with directives := other.directives ++ [directive] } := by
  obtain ⟨loc, rfl⟩ := h
  refine ⟨loc, ?_⟩
  rw [Node.move_eq shift other, Node.move_eq shift { other with directives := _ }, move_append]
  rfl

theorem with_trait (h : Draft shift node other) (name : String) (config : TraitConfig) :
    Draft shift { node with traits := node.traits.insert name (move shift config) }
      { other with traits := other.traits.insert name config } := by
  obtain ⟨loc, rfl⟩ := h
  exact ⟨loc, by rw [Node.move_eq, Node.move_eq, move_insert]⟩

theorem with_exported (h : Draft shift node other) (exported : Bool) :
    Draft shift { node with exported := exported } { other with exported := exported } := by
  obtain ⟨loc, rfl⟩ := h
  exact ⟨loc, by rw [Node.move_eq, Node.move_eq]⟩

/-- With its place the node is the same further down. -/
theorem place (h : Draft shift node other) (loc : Location) :
    { node with loc := move shift loc } = move shift { other with loc := loc } := by
  obtain ⟨_, rfl⟩ := h
  rw [Node.move_eq, Node.move_eq]

theorem attach (h : Draft shift node other) (directive : Directive) :
    Draft shift (node.attach (move shift directive)) (other.attach directive) := by
  cases directive with
  | trait name config | generic name config => exact h.with_trait name config
  | conditional condition body elseBody =>
      cases elseBody <;> exact h.with_directive (.conditional condition body _)
  | lifecycle | state | bindings | loop | whileLoop | imports | setting | topic =>
      exact h.with_directive _

end Draft

namespace Diagnostic

variable (shift : Shift)

theorem move_withLabel (d : Diagnostic) (span : Span) (message : String) :
    move shift (d.withLabel span message) =
      (move shift d).withLabel (move shift span) message :=
  congrArg (fun labels => ({ move shift d with labels := labels } : Diagnostic))
    (move_append shift d.labels [⟨span, message⟩])

theorem move_withFix (d : Diagnostic) (fix : QuickFix) :
    move shift (d.withFix fix) = (move shift d).withFix (move shift fix) :=
  congrArg (fun fixes => ({ move shift d with fixes := fixes } : Diagnostic))
    (move_append shift d.fixes [fix])

theorem move_withCandidates (d : Diagnostic) (render : String → String)
    (candidates : List String) :
    move shift (d.withCandidates render candidates) =
      (move shift d).withCandidates render candidates := by
  unfold withCandidates
  induction candidates generalizing d with
  | nil => rfl
  | cons candidate rest ih =>
      rw [List.foldl_cons, List.foldl_cons, ih, move_withFix]
      rfl

end Diagnostic

/-! ## Cursors and scanners -/

instance : Movable Cursor where
  move shift cursor :=
    { cursor with
      offset := cursor.offset + shift.bytes
      position := move shift cursor.position }

instance : Movable Scanner where
  move shift s := { s with cursor := move shift s.cursor }

instance : Movable Scanner.Step where
  move shift
    | .emit token next => .emit (move shift token) (move shift next)
    | .skip next => .skip (move shift next)
    | .finish token => .finish (move shift token)

variable (shift : Shift)

namespace Cursor

@[simp] theorem rest_move (cursor : Cursor) : (move shift cursor).rest = cursor.rest := rfl

@[simp] theorem next_move (cursor : Cursor) :
    (move shift cursor).next = move shift cursor.next := by
  unfold next
  rw [rest_move]
  split
  next => rfl
  next c rest _ =>
    have hoffset : cursor.offset + shift.bytes + c.utf8Size =
        cursor.offset + c.utf8Size + shift.bytes := Nat.add_right_comm _ _ _
    have hline : cursor.position.line + shift.lines + 1 =
        cursor.position.line + 1 + shift.lines := Nat.add_right_comm _ _ _
    simp only [move, hoffset]
    split
    · rw [hline]
    · rfl

@[simp] theorem skip_move (width : Nat) (cursor : Cursor) :
    (move shift cursor).skip width = move shift (cursor.skip width) := by
  induction width generalizing cursor with
  | zero => rfl
  | succ width ih => rw [skip, skip, next_move, ih]

/-- Behind a line break a text stands as many lines down as there are breaks before it. -/
theorem behind_of_break (front rest : List Char) (ids : Nat) :
    behind (front ++ ['\n']) rest =
      move ⟨(front ++ ['\n']).count '\n', Text.byteLength (front ++ ['\n']), ids⟩ (ofText rest) := by
  have hline (lines : Nat) : lines + 1 = 1 + lines := Nat.add_comm _ _
  simp [behind, ofText, move, Position.behind, Position.start, hline]

end Cursor

namespace Scanner

@[simp] theorem cursor_move (s : Scanner) : (move shift s).cursor = move shift s.cursor := rfl

theorem startLine_move (s : Scanner) : (move shift s).startLine = move shift s.startLine := by
  unfold startLine
  simp only [cursor_move, Cursor.rest_move, Cursor.skip_move]
  split <;> rfl

theorem close_move (s : Scanner) : (move shift s).close = move shift s.close := by
  obtain ⟨cursor, levels, owed, atLineStart, lineHasToken, groups, afterValue⟩ := s
  cases lineHasToken with
  | true => rfl
  | false => cases levels <;> rfl

theorem breakLine_move (s : Scanner) : (move shift s).breakLine = move shift s.breakLine := by
  unfold breakLine
  simp only [cursor_move, Cursor.next_move]
  change (if 0 < s.groups then _ else if s.lineHasToken then _ else _) = _
  split
  · rfl
  · split <;> rfl

theorem emitLexeme_move (s : Scanner) (lexeme : Lexeme) :
    (move shift s).emitLexeme lexeme = move shift (s.emitLexeme lexeme) := by
  unfold emitLexeme
  simp only [cursor_move, Cursor.rest_move, Cursor.skip_move]
  rfl

theorem step_move (s : Scanner) : (move shift s).step = move shift s.step := by
  have howed : (move shift s).owed = s.owed := rfl
  have hstart : (move shift s).atLineStart = s.atLineStart := rfl
  have hgroups : (move shift s).groups = s.groups := rfl
  have hline : (move shift s).lineHasToken = s.lineHasToken := rfl
  have hvalue : (move shift s).afterValue = s.afterValue := rfl
  unfold step
  rw [howed, hstart, hgroups, hline, hvalue, cursor_move, Cursor.rest_move, startLine_move,
    close_move, breakLine_move]
  cases s.owed with
  | cons kind owed => rfl
  | nil =>
      dsimp only
      split
      · rfl
      cases s.cursor.rest with
      | nil => rfl
      | cons c rest =>
          dsimp only
          split
          · rw [Cursor.skip_move]
            rfl
          split
          · rfl
          cases Lexeme.scan s.afterValue c rest with
          | none =>
              dsimp only
              rw [Cursor.next_move]
              rfl
          | some lexeme => exact emitLexeme_move shift s lexeme

/-- The tokens of a text further down. -/
theorem tokens_move (s : Scanner) : (move shift s).tokens = move shift s.tokens := by
  induction s using Scanner.tokens.induct with
  | case1 s token next hstep ih =>
      have hmoved := step_move shift s
      rw [hstep] at hmoved
      rw [tokens_of_emit hstep, tokens_of_emit hmoved, ih]
      rfl
  | case2 s next hstep ih =>
      have hmoved := step_move shift s
      rw [hstep] at hmoved
      rw [tokens_of_skip hstep, tokens_of_skip hmoved, ih]
  | case3 s token hstep =>
      have hmoved := step_move shift s
      rw [hstep] at hmoved
      rw [tokens_of_finish hstep, tokens_of_finish hmoved]
      rfl

/-- A run further down. -/
theorem Emits.moved {s last : Scanner} {tokens : List Token} (h : Emits s tokens last) :
    Emits (move shift s) (move shift tokens) (move shift last) := by
  induction h with
  | refl s => exact .refl _
  | @skip s next last tokens hstep _ ih =>
      have hmoved := step_move shift s
      rw [hstep] at hmoved
      exact .skip hmoved ih
  | @emit s next last token tokens hstep _ ih =>
      have hmoved := step_move shift s
      rw [hstep] at hmoved
      exact .emit hmoved ih

end Scanner

end SceneLang
