import SceneLang.Parser.Expression

/-!
# The grammar of values

A value is derived level by level, from `??` at the top down to primary values.  Operators of
a binary level lean to the left; the first branch of a conditional is a whole value, and the
other one is a conditional again.  A derivation relates some tokens to the value they stand
for, and keeps count of how deep values are nested within it.  The text of an interpolation
goes into a table under the number of texts before it, so that the table is carried along.
-/

namespace SceneLang
namespace Grammar

open Parser

/-! ## Levels -/

/-- The levels of the grammar, the one that binds the weakest first. -/
inductive Level where
  | coalesce
  | or
  | and
  | ternary
  | equality
  | comparison
  | sum
  | product
  | unary
  | access
  | primary
deriving DecidableEq, Repr

namespace Level

def tighter : Level → Level
  | .coalesce => .or
  | .or => .and
  | .and => .ternary
  | .ternary => .equality
  | .equality => .comparison
  | .comparison => .sum
  | .sum => .product
  | .product => .unary
  | .unary => .access
  | .access | .primary => .primary

def rank : Level → Nat
  | .primary => 0
  | .access => 1
  | .unary => 2
  | .product => 3
  | .sum => 4
  | .comparison => 5
  | .equality => 6
  | .ternary => 7
  | .and => 8
  | .or => 9
  | .coalesce => 10

def operator? : Level → TokenKind → Option BinaryOp
  | .coalesce => coalesceOp?
  | .or => orOp?
  | .and => andOp?
  | .equality => equalityOp?
  | .comparison => comparisonOp?
  | .sum => sumOp?
  | .product => productOp?
  | _ => fun _ => none

/-- The level of the values at a place. -/
def ofStrength : Strength → Level
  | .any => .coalesce
  | .conditional => .ternary

end Level

/-! ## Derivations -/

/-- What can be derived: a value of a level, a value one level of nesting further in, an item
of a list and the items of a list, and the entries of an object. -/
inductive Phrase where
  | expr (level : Level) (value : Value)
  | nested (strength : Strength) (value : Value)
  | item (value : Value)
  | items (values : List Value)
  | entries (entries : List ObjectEntry)

def unaryOp? : TokenKind → Option UnaryOp
  | .bang => some .not
  | .minus => some .neg
  | _ => none

def isKey : TokenKind → Bool
  | .identifier | .string | .number | .boolean | .null => true
  | _ => false

/-- `Derives depth phrase before tokens after`: the tokens stand for the phrase, with at most
`depth` levels of values nested in each other, and take the table of interpolations from
`before` to `after`. -/
inductive Derives : Nat → Phrase → Table String → List Token → Table String → Prop where
  | string {depth : Nat} {table : Table String} {token : Token} (hkind : token.kind = .string) :
      Derives depth (.expr .primary (.string token.text)) table [token] table
  | number {depth : Nat} {table : Table String} {token : Token} (hkind : token.kind = .number) :
      Derives depth (.expr .primary (.ofLiteral token.text)) table [token] table
  | boolean {depth : Nat} {table : Table String} {token : Token} (hkind : token.kind = .boolean) :
      Derives depth (.expr .primary (.bool (token.text = "true"))) table [token] table
  | null {depth : Nat} {table : Table String} {token : Token} (hkind : token.kind = .null) :
      Derives depth (.expr .primary .null) table [token] table
  | interpolation {depth : Nat} {table : Table String} {token : Token}
      (hkind : token.kind = .interpolation) :
      Derives depth (.expr .primary (.interpolation (interpolationId table) token.text)) table
        [token] (table.insert (interpolationId table) token.text)
  | reference {depth : Nat} {table : Table String} {token : Token}
      (hkind : token.kind = .identifier) :
      Derives depth (.expr .primary (.reference token.text)) table [token] table
  | parens {depth : Nat} {before after : Table String} {opening closing : Token}
      {tokens : List Token} {value : Value}
      (hopening : opening.kind = .leftParen) (hclosing : closing.kind = .rightParen)
      (hvalue : Derives depth (.nested .any value) before tokens after) :
      Derives depth (.expr .primary value) before (opening :: (tokens ++ [closing])) after
  | array {depth : Nat} {before after : Table String} {opening closing : Token}
      {tokens : List Token} {values : List Value}
      (hopening : opening.kind = .leftBracket) (hclosing : closing.kind = .rightBracket)
      (hitems : Derives depth (.items values) before tokens after) :
      Derives depth (.expr .primary (.array values)) before
        (opening :: (tokens ++ [closing])) after
  | object {depth : Nat} {before after : Table String} {opening closing : Token}
      {tokens : List Token} {entries : List ObjectEntry}
      (hopening : opening.kind = .leftBrace) (hclosing : closing.kind = .rightBrace)
      (hentries : Derives depth (.entries entries) before tokens after) :
      Derives depth (.expr .primary (.object entries)) before
        (opening :: (tokens ++ [closing])) after
  | member {depth : Nat} {before after : Table String} {dot name : Token} {tokens : List Token}
      {target : Value} (hdot : dot.kind = .dot) (hname : name.kind = .identifier)
      (htarget : Derives depth (.expr .access target) before tokens after) :
      Derives depth (.expr .access (.member target name.text)) before
        (tokens ++ [dot, name]) after
  | index {depth : Nat} {before middle after : Table String} {opening closing : Token}
      {tokens inside : List Token} {target key : Value}
      (hopening : opening.kind = .leftBracket) (hclosing : closing.kind = .rightBracket)
      (htarget : Derives depth (.expr .access target) before tokens middle)
      (hkey : Derives depth (.nested .any key) middle inside after) :
      Derives depth (.expr .access (.index target key)) before
        (tokens ++ opening :: (inside ++ [closing])) after
  | call {depth : Nat} {before middle after : Table String} {opening closing : Token}
      {tokens inside : List Token} {callee : Value} {args : List Value}
      (hopening : opening.kind = .leftParen) (hclosing : closing.kind = .rightParen)
      (hcallee : Derives depth (.expr .access callee) before tokens middle)
      (hargs : Derives depth (.items args) middle inside after) :
      Derives depth (.expr .access (.call callee args)) before
        (tokens ++ opening :: (inside ++ [closing])) after
  | unary {depth : Nat} {before after : Table String} {mark : Token} {tokens : List Token}
      {op : UnaryOp} {operand : Value} (hmark : unaryOp? mark.kind = some op)
      (hoperand : Derives depth (.expr .unary operand) before tokens after) :
      Derives depth (.expr .unary (.unary op operand)) before (mark :: tokens) after
  | binary {depth : Nat} {level : Level} {before middle after : Table String} {mark : Token}
      {front back : List Token} {op : BinaryOp} {left right : Value}
      (hmark : level.operator? mark.kind = some op)
      (hleft : Derives depth (.expr level left) before front middle)
      (hright : Derives depth (.expr level.tighter right) middle back after) :
      Derives depth (.expr level (.binary op left right)) before (front ++ mark :: back) after
  | ternary {depth : Nat} {before first second after : Table String} {question colon : Token}
      {front middle back : List Token} {condition thenBranch elseBranch : Value}
      (hquestion : question.kind = .question) (hcolon : colon.kind = .colon)
      (hcondition : Derives depth (.expr .equality condition) before front first)
      (hthen : Derives depth (.nested .any thenBranch) first middle second)
      (helse : Derives depth (.nested .conditional elseBranch) second back after) :
      Derives depth (.expr .ternary (.ternary condition thenBranch elseBranch)) before
        (front ++ question :: (middle ++ colon :: back)) after
  | looser {depth : Nat} {level : Level} {before after : Table String} {tokens : List Token}
      {value : Value} (hvalue : Derives depth (.expr level.tighter value) before tokens after) :
      Derives depth (.expr level value) before tokens after
  | nested {depth : Nat} {strength : Strength} {before after : Table String}
      {tokens : List Token} {value : Value}
      (hvalue : Derives depth (.expr (.ofStrength strength) value) before tokens after) :
      Derives (depth + 1) (.nested strength value) before tokens after
  | item {depth : Nat} {before after : Table String} {tokens : List Token} {value : Value}
      (hvalue : Derives depth (.nested .any value) before tokens after) :
      Derives depth (.item value) before tokens after
  | spreadItem {depth : Nat} {before after : Table String} {dots : Token} {tokens : List Token}
      {value : Value} (hdots : dots.kind = .spread)
      (hvalue : Derives depth (.nested .any value) before tokens after) :
      Derives depth (.item (.spread value)) before (dots :: tokens) after
  | noItems {depth : Nat} {table : Table String} : Derives depth (.items []) table [] table
  | lastItem {depth : Nat} {before after : Table String} {tokens : List Token} {value : Value}
      (hitem : Derives depth (.item value) before tokens after) :
      Derives depth (.items [value]) before tokens after
  | consItem {depth : Nat} {before middle after : Table String} {comma : Token}
      {front back : List Token} {value : Value} {values : List Value}
      (hcomma : comma.kind = .comma)
      (hitem : Derives depth (.item value) before front middle)
      (hitems : Derives depth (.items values) middle back after) :
      Derives depth (.items (value :: values)) before (front ++ comma :: back) after
  | noEntries {depth : Nat} {table : Table String} : Derives depth (.entries []) table [] table
  | separator {depth : Nat} {before after : Table String} {mark : Token} {tokens : List Token}
      {entries : List ObjectEntry} (hmark : mark.kind = .comma ∨ mark.kind = .semicolon)
      (hentries : Derives depth (.entries entries) before tokens after) :
      Derives depth (.entries entries) before (mark :: tokens) after
  | field {depth : Nat} {before middle after : Table String} {key colon : Token}
      {front back : List Token} {value : Value} {entries : List ObjectEntry}
      (hkey : isKey key.kind = true) (hcolon : colon.kind.separatesKey = true)
      (hvalue : Derives depth (.nested .any value) before front middle)
      (hentries : Derives depth (.entries entries) middle back after) :
      Derives depth (.entries (.field key.text value :: entries)) before
        (key :: colon :: (front ++ back)) after
  | shorthand {depth : Nat} {before after : Table String} {key : Token} {tokens : List Token}
      {entries : List ObjectEntry} (hkey : key.kind = .identifier)
      (hnext : ∀ next ∈ tokens.head?, next.kind = .comma)
      (hentries : Derives depth (.entries entries) before tokens after) :
      Derives depth (.entries (.field key.text (.reference key.text) :: entries)) before
        (key :: tokens) after
  | spreadEntry {depth : Nat} {before middle after : Table String} {dots : Token}
      {front back : List Token} {value : Value} {entries : List ObjectEntry}
      (hdots : dots.kind = .spread)
      (hvalue : Derives depth (.nested .any value) before front middle)
      (hentries : Derives depth (.entries entries) middle back after) :
      Derives depth (.entries (.spread value :: entries)) before (dots :: (front ++ back)) after

theorem Level.tighter_rank (level : Level) : level.tighter.rank = level.rank - 1 := by
  cases level <;> rfl

theorem Level.eq_of_rank_eq {level other : Level} (h : level.rank = other.rank) :
    level = other := by
  cases level <;> cases other <;> first | rfl | contradiction

/-- A value of a level is one of each level that binds more weakly. -/
theorem Derives.weaken {depth : Nat} {stronger level : Level} {before after : Table String}
    {tokens : List Token} {value : Value}
    (h : Derives depth (.expr stronger value) before tokens after)
    (hrank : stronger.rank ≤ level.rank) :
    Derives depth (.expr level value) before tokens after := by
  induction hlevel : level.rank generalizing level with
  | zero =>
      have hsame : stronger = level := Level.eq_of_rank_eq (by omega)
      exact hsame ▸ h
  | succ rank ih =>
      have htighter : level.tighter.rank = rank := by
        rw [level.tighter_rank, hlevel, Nat.add_sub_cancel]
      by_cases hsame : stronger.rank = level.rank
      · exact Level.eq_of_rank_eq hsame ▸ h
      · exact .looser (ih (by omega) htighter)

/-! ## The tokens of a derivation -/

/-- The kind is no layout, no arrow of a function and not the end. -/
def isPlain : TokenKind → Bool
  | .newline | .indent | .dedent | .eof | .fatArrow => false
  | _ => true

def Plain (token : Token) : Prop :=
  token.kind.isLayout = false ∧ token.kind ≠ .eof ∧ token.kind ≠ .fatArrow

theorem Plain.of_kind {token : Token} {kind : TokenKind} (h : token.kind = kind)
    (hplain : isPlain kind = true) : Plain token := by
  subst h
  refine ⟨?_, ?_, ?_⟩
  · cases hkind : token.kind <;> rw [hkind] at hplain <;> first | rfl | contradiction
  · intro hkind
    rw [hkind] at hplain
    contradiction
  · intro hkind
    rw [hkind] at hplain
    contradiction

theorem plain_operator {level : Level} {token : Token} {op : BinaryOp}
    (h : level.operator? token.kind = some op) : Plain token := by
  cases hkind : token.kind <;> rw [hkind] at h <;>
    first
      | exact .of_kind hkind rfl
      | cases level <;> contradiction

theorem plain_unaryOp {token : Token} {op : UnaryOp} (h : unaryOp? token.kind = some op) :
    Plain token := by
  cases hkind : token.kind <;> rw [hkind] at h <;> first | exact .of_kind hkind rfl | contradiction

theorem plain_key {token : Token} (h : isKey token.kind = true) : Plain token := by
  cases hkind : token.kind <;> rw [hkind] at h <;> first | exact .of_kind hkind rfl | contradiction

theorem plain_separatesKey {token : Token} (h : token.kind.separatesKey = true) :
    Plain token := by
  cases hkind : token.kind <;> rw [hkind] at h <;> first | exact .of_kind hkind rfl | contradiction

theorem Derives.plain {depth : Nat} {phrase : Phrase} {before after : Table String}
    {tokens : List Token} (h : Derives depth phrase before tokens after) :
    ∀ token ∈ tokens, Plain token := by
  induction h with
  | string h | number h | boolean h | null h | interpolation h | reference h =>
      rw [List.forall_mem_singleton]
      exact .of_kind h rfl
  | parens hopening hclosing _ ih | array hopening hclosing _ ih | object hopening hclosing _ ih =>
      rw [List.forall_mem_cons, List.forall_mem_append, List.forall_mem_singleton]
      exact ⟨.of_kind hopening rfl, ih, .of_kind hclosing rfl⟩
  | member hdot hname _ ih =>
      rw [List.forall_mem_append, List.forall_mem_cons, List.forall_mem_singleton]
      exact ⟨ih, .of_kind hdot rfl, .of_kind hname rfl⟩
  | index hopening hclosing _ _ ih ih' | call hopening hclosing _ _ ih ih' =>
      rw [List.forall_mem_append, List.forall_mem_cons, List.forall_mem_append,
        List.forall_mem_singleton]
      exact ⟨ih, .of_kind hopening rfl, ih', .of_kind hclosing rfl⟩
  | unary hmark _ ih =>
      rw [List.forall_mem_cons]
      exact ⟨plain_unaryOp hmark, ih⟩
  | binary hmark _ _ ih ih' =>
      rw [List.forall_mem_append, List.forall_mem_cons]
      exact ⟨ih, plain_operator hmark, ih'⟩
  | ternary hquestion hcolon _ _ _ ih ih' ih'' =>
      rw [List.forall_mem_append, List.forall_mem_cons, List.forall_mem_append,
        List.forall_mem_cons]
      exact ⟨ih, .of_kind hquestion rfl, ih', .of_kind hcolon rfl, ih''⟩
  | looser _ ih | nested _ ih | item _ ih | lastItem _ ih => exact ih
  | spreadItem hdots _ ih =>
      rw [List.forall_mem_cons]
      exact ⟨.of_kind hdots rfl, ih⟩
  | noItems | noEntries =>
      intro token hmem
      cases hmem
  | consItem hcomma _ _ ih ih' =>
      rw [List.forall_mem_append, List.forall_mem_cons]
      exact ⟨ih, .of_kind hcomma rfl, ih'⟩
  | separator hmark _ ih =>
      rw [List.forall_mem_cons]
      rcases hmark with hmark | hmark
      · exact ⟨.of_kind hmark rfl, ih⟩
      · exact ⟨.of_kind hmark rfl, ih⟩
  | field hkey hcolon _ _ ih ih' =>
      rw [List.forall_mem_cons, List.forall_mem_cons, List.forall_mem_append]
      exact ⟨plain_key hkey, plain_separatesKey hcolon, ih, ih'⟩
  | shorthand hkey _ _ ih =>
      rw [List.forall_mem_cons]
      exact ⟨.of_kind hkey rfl, ih⟩
  | spreadEntry hdots _ _ ih ih' =>
      rw [List.forall_mem_cons, List.forall_mem_append]
      exact ⟨.of_kind hdots rfl, ih, ih'⟩

/-! ## The first token of a derivation -/

def startsPrimary : TokenKind → Bool
  | .identifier | .string | .number | .boolean | .null | .interpolation => true
  | .leftParen | .leftBracket | .leftBrace => true
  | _ => false

def startsValue (kind : TokenKind) : Bool :=
  startsPrimary kind || (unaryOp? kind).isSome

/-- The kinds of tokens that an entry of an object, or what separates it, starts with. -/
def startsEntry (kind : TokenKind) : Bool :=
  isKey kind || kind = .spread || kind = .comma || kind = .semicolon

/-- The first token of a phrase; lists may be empty. -/
def StartsAs : Phrase → TokenKind → Prop
  | .expr level _, kind => startsValue kind = true ∧ (level.rank ≤ 1 → startsPrimary kind = true)
  | .nested _ _, kind => startsValue kind = true
  | .item _, kind | .items _, kind => startsValue kind = true ∨ kind = .spread
  | .entries _, kind => startsEntry kind = true

/-- Lists alone may be without tokens. -/
def MayBeEmpty : Phrase → Prop
  | .items _ | .entries _ => True
  | _ => False

theorem Derives.head {depth : Nat} {phrase : Phrase} {before after : Table String}
    {tokens : List Token} (h : Derives depth phrase before tokens after) :
    (MayBeEmpty phrase ∧ tokens = []) ∨
      ∃ first rest, tokens = first :: rest ∧ StartsAs phrase first.kind := by
  induction h with
  | string h | number h | boolean h | null h | interpolation h | reference h =>
      exact .inr ⟨_, _, rfl, by rw [h]; exact ⟨rfl, fun _ => rfl⟩⟩
  | parens h | array h | object h =>
      exact .inr ⟨_, _, rfl, by rw [h]; exact ⟨rfl, fun _ => rfl⟩⟩
  | member _ _ _ ih | index _ _ _ _ ih | call _ _ _ _ ih =>
      obtain ⟨hempty, -⟩ | ⟨first, rest, rfl, hfirst⟩ := ih
      · exact hempty.elim
      · exact .inr ⟨first, _, rfl, hfirst⟩
  | unary hmark =>
      refine .inr ⟨_, _, rfl, ?_, fun hrank => absurd hrank (by decide)⟩
      rw [startsValue, hmark, Option.isSome_some, Bool.or_true]
  | binary hmark _ _ ih =>
      obtain ⟨hempty, -⟩ | ⟨first, rest, rfl, hfirst⟩ := ih
      · exact hempty.elim
      · exact .inr ⟨first, _, rfl, hfirst⟩
  | ternary _ _ _ _ _ ih =>
      obtain ⟨hempty, -⟩ | ⟨first, rest, rfl, hfirst⟩ := ih
      · exact hempty.elim
      · exact .inr ⟨first, _, rfl, hfirst.1, fun hrank => absurd hrank (by decide)⟩
  | @looser _ level _ _ _ _ _ ih =>
      obtain ⟨hempty, -⟩ | ⟨first, rest, rfl, hfirst⟩ := ih
      · exact hempty.elim
      · refine .inr ⟨first, _, rfl, hfirst.1, fun hrank => hfirst.2 ?_⟩
        cases level <;> simp_all [Level.rank, Level.tighter]
  | nested _ ih =>
      obtain ⟨hempty, -⟩ | ⟨first, rest, rfl, hfirst⟩ := ih
      · exact hempty.elim
      · exact .inr ⟨first, _, rfl, hfirst.1⟩
  | item _ ih =>
      obtain ⟨hempty, -⟩ | ⟨first, rest, rfl, hfirst⟩ := ih
      · exact hempty.elim
      · exact .inr ⟨first, _, rfl, .inl hfirst⟩
  | spreadItem hdots => exact .inr ⟨_, _, rfl, .inr hdots⟩
  | noItems | noEntries => exact .inl ⟨trivial, rfl⟩
  | lastItem _ ih | consItem _ _ _ ih =>
      obtain ⟨hempty, -⟩ | ⟨first, rest, rfl, hfirst⟩ := ih
      · exact hempty.elim
      · exact .inr ⟨first, _, rfl, hfirst⟩
  | separator hmark =>
      refine .inr ⟨_, _, rfl, ?_⟩
      rcases hmark with hmark | hmark <;> rw [StartsAs, hmark] <;> rfl
  | field hkey =>
      refine .inr ⟨_, _, rfl, ?_⟩
      rw [StartsAs, startsEntry, hkey]
      rfl
  | shorthand hkey =>
      refine .inr ⟨_, _, rfl, ?_⟩
      rw [StartsAs, hkey]
      rfl
  | spreadEntry hdots =>
      refine .inr ⟨_, _, rfl, ?_⟩
      rw [StartsAs, hdots]
      rfl

end Grammar
end SceneLang
