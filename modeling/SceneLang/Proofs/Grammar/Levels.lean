import SceneLang.Proofs.Grammar.Derivation
import SceneLang.Proofs.Parser.Nesting

/-!
# Reading tokens one by one

Where the tokens that a parser sees are known, so is what it does.  `Sees` says which they are,
and `Read` what a parser leaves behind that has read some of them as a part of a value: it has
reported nothing, and is at the level of nesting and of braces where it started.
-/

namespace SceneLang
namespace Grammar

open Parser

variable {α : Type} {context : Context} {state next : State} {token : Token} {rest : List Token}

/-! ## Tokens in sight -/

/-- The parser sees a token and some tokens behind it. -/
structure Sees (token : Token) (rest : List Token) (state : State) : Prop where
  ended : Ended state.ahead
  visible : state.visibleFrom 0 = token :: rest

theorem sees_of_ahead (hended : Ended state.ahead) (hahead : state.ahead = token :: rest)
    (hplain : token.kind.isLayout = false) : Sees token rest state := by
  constructor
  · exact hended
  rw [State.visibleFrom, hahead]
  exact visible_cons hplain

namespace Sees

variable (h : Sees token rest state)
include h

theorem token_eq : state.token = token :=
  State.token_of_visible h.visible

theorem current {post : Token → State → Prop} :
    Returns current context state post ↔ post token state := by
  rw [returns_current h.ended, h.token_eq]

theorem currentKind {post : TokenKind → State → Prop} :
    Returns currentKind context state post ↔ post token.kind state := by
  rw [returns_currentKind h.ended, h.token_eq]

theorem check {kind : TokenKind} {post : Bool → State → Prop} :
    Returns (check kind) context state post ↔ post (decide (token.kind = kind)) state := by
  rw [returns_check h.ended, h.token_eq]

theorem eat_of_eq {kind : TokenKind} {post : Bool → State → Prop} (hkind : token.kind = kind) :
    Returns (eat kind) context state post ↔ post true state.advance := by
  rw [returns_eat h.ended, h.token_eq]
  constructor
  · intro hpost
    exact hpost.1 hkind
  · intro hpost
    exact ⟨fun _ => hpost, fun hne => absurd hkind hne⟩

theorem eat_of_ne {kind : TokenKind} {post : Bool → State → Prop} (hkind : token.kind ≠ kind) :
    Returns (eat kind) context state post ↔ post false state := by
  rw [returns_eat h.ended, h.token_eq]
  constructor
  · intro hpost
    exact hpost.2 hkind
  · intro hpost
    exact ⟨fun heq => absurd heq hkind, fun _ => hpost⟩

theorem advance {post : Unit → State → Prop} :
    Returns advance context state post ↔ post () state.advance :=
  returns_advance h.ended

theorem advance_eq (hplain : Plain token) :
    state.advance =
      { state with
        ahead := rest
        braceDepth := depthAfter state.braceDepth token.kind
        previous := some token } := by
  rw [State.advance_of_visible h.visible hplain.2.1, hplain.1]
  rfl

theorem shorter (hplain : Plain token) : rest.length < state.ahead.length := by
  have hreads : Reads state state.advance :=
    advance_reads h.ended (by rw [h.token_eq]; exact hplain.2.1)
  have hshorter := hreads.shorter
  rwa [h.advance_eq hplain] at hshorter

theorem ended_rest (hplain : Plain token) : Ended rest := by
  have hreads : Reads state state.advance :=
    advance_reads h.ended (by rw [h.token_eq]; exact hplain.2.1)
  have hended := hreads.moved.ended h.ended
  rwa [h.advance_eq hplain] at hended

end Sees

/-! ## Parts of a value -/

/-- The line of the last of some tokens, or the line that they stand behind. -/
def endLine (line : Nat) (tokens : List Token) : Nat :=
  tokens.foldl (fun _ token => token.line) line

section

variable {line : Nat} {tokens : List Token}

@[simp] theorem endLine_nil : endLine line [] = line := rfl

@[simp] theorem endLine_cons : endLine line (token :: tokens) = endLine token.line tokens := rfl

@[simp] theorem endLine_append (front back : List Token) :
    endLine line (front ++ back) = endLine (endLine line front) back :=
  List.foldl_append

theorem endLine_of_forall (h : ∀ token ∈ tokens, token.line = line) : endLine line tokens = line := by
  induction tokens with
  | nil => rfl
  | cons token tokens ih =>
      rw [List.forall_mem_cons] at h
      rw [endLine_cons, h.1]
      exact ih h.2

end

/-- What the parser leaves behind that has read a part of a value, up to a token of a line. -/
structure Read (line : Nat) (rest : List Token) (table : Table String) (state next : State) :
    Prop where
  ended : Ended next.ahead
  ahead : next.ahead = rest
  shorter : next.ahead.length ≤ state.ahead.length
  line : next.previous.map Token.line = some line
  braceDepth : next.braceDepth = state.braceDepth
  nesting : next.nesting = state.nesting
  calm : next.valueFailed = false
  log : next.log = state.log
  imports : next.imports = state.imports
  table : next.expressions = table

namespace Read

variable {line line' : Nat} {table middle : Table String} {first last : State}
  {between : List Token}

theorem trans (h : Read line between middle first state) (h' : Read line' rest table state last) :
    Read line' rest table first last where
  ended := h'.ended
  ahead := h'.ahead
  shorter := Nat.le_trans h'.shorter h.shorter
  line := h'.line
  braceDepth := h'.braceDepth.trans h.braceDepth
  nesting := h'.nesting.trans h.nesting
  calm := h'.calm
  log := h'.log.trans h.log
  imports := h'.imports.trans h.imports
  table := h'.table

theorem sees {others : List Token} (h : Read line (token :: others) table state next)
    (hplain : token.kind.isLayout = false) : Sees token others next :=
  sees_of_ahead h.ended h.ahead hplain

end Read

theorem read_refl {line : Nat} (hended : Ended state.ahead)
    (hline : state.previous.map Token.line = some line) (hcalm : state.valueFailed = false) :
    Read line state.ahead state.expressions state state :=
  ⟨hended, rfl, Nat.le_refl _, hline, rfl, rfl, hcalm, rfl, rfl, rfl⟩

/-- A token other than a brace has been read. -/
theorem Sees.read_advance (h : Sees token rest state) (hplain : Plain token)
    (hbraces : depthAfter state.braceDepth token.kind = state.braceDepth)
    (hcalm : state.valueFailed = false) :
    Read token.line rest state.expressions state state.advance := by
  have hlength := Nat.le_of_lt (h.shorter hplain)
  rw [h.advance_eq hplain, hbraces]
  exact ⟨h.ended_rest hplain, rfl, hlength, rfl, rfl, rfl, hcalm, rfl, rfl, rfl⟩

theorem Read.advance {line : Nat} {table : Table String}
    (h : Read line (token :: rest) table state next) (hplain : Plain token)
    (hbraces : depthAfter next.braceDepth token.kind = next.braceDepth)
    (hline : token.line = line) : Read line rest table state next.advance := by
  have hread := (h.sees hplain.1).read_advance hplain hbraces h.calm
  rw [hline, h.table] at hread
  exact h.trans hread

/-! ## Notes -/

theorem returns_previousLine {line : Nat} {post : Nat → State → Prop}
    (hline : state.previous.map Token.line = some line) :
    Returns previousLine context state post ↔ post line state := by
  rw [previousLine, returns_bind, returns_get, returns_pure, hline, Option.getD_some]

theorem returns_setValueFailed {post : Unit → State → Prop} (hcalm : state.valueFailed = false) :
    Returns (setValueFailed false) context state post ↔ post () state := by
  have hsame : { state with valueFailed := false } = state := by
    rw [← hcalm]
  rw [setValueFailed, returns_modify, hsame]

theorem returns_valueFailed {post : Bool → State → Prop} (hcalm : state.valueFailed = false) :
    Returns valueFailed context state post ↔ post false state := by
  rw [valueFailed, returns_bind, returns_get, returns_pure, hcalm]

theorem returns_ifFailed {recover : Parser Unit} {post : Unit → State → Prop}
    (hcalm : state.valueFailed = false) :
    Returns (ifFailed recover) context state post ↔ post () state := by
  rw [ifFailed, returns_bind, returns_valueFailed hcalm, if_neg Bool.false_ne_true, returns_pure]

theorem returns_use_features {feature : Feature} {post : Unit → State → Prop}
    (h : ∀ features, post () { state with features := features }) :
    Returns (use feature) context state post := by
  apply returns_modify.mpr
  split
  · exact h state.features
  · exact h (feature :: state.features)

theorem returns_expectClosing {delimiter : Delimiter} {post : Unit → State → Prop}
    (hsees : Sees token rest state) (hkind : token.kind = delimiter.closing) :
    Returns (expectClosing delimiter) context state post ↔ post () state.advance := by
  rw [expectClosing, returns_bind, hsees.eat_of_eq hkind, if_pos rfl, returns_pure]

end Grammar
end SceneLang

/-!
## Levels and what ends them

A parser of a binary level reads an operand and then goes round a loop, and so does the parser
of what follows a primary value.  Both halves have a name here, so that a value that leans to
the left can be followed through the loop.  The loop ends at a token that joins nothing to a
value of its level.
-/

namespace SceneLang
namespace Grammar

open Parser

namespace Level

def parser (inner : Inner) : Level → Parser Value
  | .primary => Parser.primary inner
  | .access => postfixed inner
  | .unary => Parser.unary inner
  | .product => chain productOp? (Parser.unary inner)
  | .sum => chain sumOp? (chain productOp? (Parser.unary inner))
  | .comparison => chain comparisonOp? (chain sumOp? (chain productOp? (Parser.unary inner)))
  | .equality => Parser.equality inner
  | .ternary => conditional inner
  | .and => chain andOp? (conditional inner)
  | .or => chain orOp? (chain andOp? (conditional inner))
  | .coalesce => Parser.coalesce inner

/-- Does the level join operands with binary operators? -/
def isBinary : Level → Bool
  | .primary | .access | .unary | .ternary => false
  | _ => true

/-- How the parser of a level goes on behind a value of it. -/
def resume (inner : Inner) (level : Level) (value : Value) : Parser Value :=
  if level = .access then iterate value (postfixTurn inner)
  else if level.isBinary then
    iterate value (chainTurn level.operator? (level.tighter.parser inner))
  else pure value

/-- The level whose values end where the loop of a level begins. -/
def border (level : Level) : Level :=
  if level = .access ∨ level.isBinary then level.tighter else level

theorem isBinary_of_operator? {level : Level} {kind : TokenKind} {op : BinaryOp}
    (h : level.operator? kind = some op) : level.isBinary = true := by
  cases level <;> first | rfl | contradiction

theorem parser_of_isBinary {level : Level} (inner : Inner) (h : level.isBinary = true) :
    level.parser inner = level.tighter.parser inner >>= fun first =>
      iterate first (chainTurn level.operator? (level.tighter.parser inner)) := by
  cases level <;> first | rfl | contradiction

theorem resume_of_isBinary {level : Level} (inner : Inner) (value : Value)
    (h : level.isBinary = true) :
    level.resume inner value =
      iterate value (chainTurn level.operator? (level.tighter.parser inner)) := by
  cases level <;> first | rfl | contradiction

theorem border_of_isBinary {level : Level} (h : level.isBinary = true) :
    level.border = level.tighter := by
  cases level <;> first | rfl | contradiction

theorem border_rank_le (level : Level) : level.border.rank ≤ level.rank := by
  cases level <;> decide

theorem tighter_rank_lt {level : Level} (h : level.isBinary = true) :
    level.tighter.rank < level.rank := by
  cases level <;> first | decide | contradiction

end Level

/-! ## What joins something to a value -/

/-- The level at which a token joins something to a value that ends on the line: an operator,
or what follows a primary value.  The arrow would make parameters of the value. -/
def joins? (line : Nat) (token : Token) : Option Level :=
  match token.kind with
  | .fatArrow => some .primary
  | .dot => some .access
  | .leftParen | .leftBracket => if token.line = line then some .access else none
  | .star | .slash | .percent => some .product
  | .plus | .minus => some .sum
  | .less | .lessEqual | .greater | .greaterEqual => some .comparison
  | .equalEqual | .bangEqual => some .equality
  | .question => some .ternary
  | .andAnd => some .and
  | .orOr => some .or
  | .coalesce | .coalesceEqual => some .coalesce
  | _ => none

theorem joins?_of_operator? {line : Nat} {level : Level} {token : Token} {op : BinaryOp}
    (h : level.operator? token.kind = some op) : joins? line token = some level := by
  unfold joins?
  cases level <;> cases hkind : token.kind <;> rw [hkind] at h <;> first | rfl | contradiction

def Ends (level : Level) (line : Nat) (token : Token) : Prop :=
  ∀ joined, joins? line token = some joined → level.rank < joined.rank

theorem Ends.mono {level tighter : Level} {line : Nat} {token : Token} (h : Ends level line token)
    (hrank : tighter.rank ≤ level.rank) : Ends tighter line token :=
  fun joined hjoined => Nat.lt_of_le_of_lt hrank (h joined hjoined)

theorem ends_of_joins?_eq_none {level : Level} {line : Nat} {token : Token}
    (h : joins? line token = none) : Ends level line token := by
  intro joined hjoined
  rw [h] at hjoined
  contradiction

/-- What can be seen behind a value is a token that ends it. -/
def Stops (level : Level) (line depth : Nat) (rest : List Token) : Prop :=
  ∃ next others, visible depth rest = next :: others ∧ Ends level line next

theorem Stops.mono {level tighter : Level} {line depth : Nat} {rest : List Token}
    (h : Stops level line depth rest) (hrank : tighter.rank ≤ level.rank) :
    Stops tighter line depth rest := by
  obtain ⟨next, others, hvisible, hends⟩ := h
  exact ⟨next, others, hvisible, hends.mono hrank⟩

theorem stops_cons {level : Level} {line depth : Nat} {token : Token} {rest : List Token}
    (hplain : token.kind.isLayout = false) (hends : Ends level line token) :
    Stops level line depth (token :: rest) :=
  ⟨token, rest, visible_cons hplain, hends⟩

/-- Behind a value that has been read the parser sees the token that ends it. -/
theorem Stops.sees {level : Level} {line : Nat} {rest : List Token} {table : Table String}
    {state next : State} (h : Stops level line state.braceDepth rest)
    (hread : Read line rest table state next) :
    ∃ token others, Sees token others next ∧ Ends level line token := by
  obtain ⟨token, others, hvisible, hends⟩ := h
  refine ⟨token, others, ⟨hread.ended, ?_⟩, hends⟩
  rw [State.visibleFrom, hread.ahead, hread.braceDepth]
  exact hvisible

theorem operator?_eq_none {level : Level} {line : Nat} {token : Token}
    (h : Ends level line token) : level.operator? token.kind = none := by
  cases hop : level.operator? token.kind with
  | none => rfl
  | some op => exact absurd (h level (joins?_of_operator? hop)) (Nat.lt_irrefl _)

/-- A value is followed by no member, index or arguments where it ends. -/
theorem returns_postfixTurn_of_ends {inner : Inner} {value : Value} {line : Nat} {token : Token}
    {rest : List Token} {context : Context} {state : State}
    {post : ForInStep Value → State → Prop} (hsees : Sees token rest state)
    (hline : state.previous.map Token.line = some line) (hends : Ends .access line token)
    (hpost : post (.done value) state) :
    Returns (postfixTurn inner value) context state post := by
  have hjoins : joins? line token ≠ some .access := by
    intro hjoins
    exact absurd (hends .access hjoins) (by decide)
  unfold joins? at hjoins
  rw [postfixTurn, returns_bind, hsees.current, returns_bind, returns_previousLine hline]
  dsimp only
  split
  next hdot =>
    rw [hdot] at hjoins
    exact absurd rfl hjoins
  next hbracket =>
    rw [hbracket] at hjoins
    rw [if_neg fun hsame => hjoins (if_pos hsame)]
    exact returns_pure.mpr hpost
  next hparen =>
    rw [hparen] at hjoins
    rw [if_neg fun hsame => hjoins (if_pos hsame)]
    exact returns_pure.mpr hpost
  next => exact returns_pure.mpr hpost

/-- The loop of a level ends at a token that ends its values. -/
theorem returns_resume_of_ends {level : Level} {inner : Inner} {value : Value} {line : Nat}
    {token : Token} {rest : List Token} {context : Context} {state : State}
    {post : Value → State → Prop} (hsees : Sees token rest state)
    (hline : state.previous.map Token.line = some line) (hends : Ends level line token)
    (hpost : post value state) :
    Returns (level.resume inner value) context state post := by
  unfold Level.resume
  split
  next haccess =>
    subst haccess
    exact returns_iterate.mpr (returns_postfixTurn_of_ends hsees hline hends hpost)
  next =>
    split
    next =>
      apply returns_iterate.mpr
      rw [chainTurn, returns_bind, hsees.currentKind, operator?_eq_none hends]
      exact returns_pure.mpr hpost
    next => exact returns_pure.mpr hpost

end Grammar
end SceneLang
