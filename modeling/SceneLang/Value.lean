import SceneLang.Number.Binary64

/-!
# Values

What a property can hold.  Expressions are values too, so that a property may be a literal,
a structure of literals, or a computation that is left to whoever reads the tree.
-/

namespace SceneLang

inductive BinaryOp where
  | coalesce
  | or
  | and
  | eq
  | ne
  | lt
  | le
  | gt
  | ge
  | add
  | sub
  | mul
  | div
  | mod
deriving DecidableEq, Repr

inductive UnaryOp where
  | not
  | neg
deriving DecidableEq, Repr

/-- A parameter of an arrow function; a rest parameter takes all further arguments. -/
structure ArrowParam where
  name : String
  rest : Bool
deriving DecidableEq, Repr

mutual

inductive Value where
  | string (text : String)
  /-- A number with its unit; `raw` is the literal as it is written. -/
  | number (value : Binary64) (unit : Option String) (raw : String)
  | bool (value : Bool)
  | null
  | array (items : List Value)
  | object (entries : List ObjectEntry)
  | reference (name : String)
  /-- Text for another language; `id` names it in the table of expressions. -/
  | interpolation (id expression : String)
  | binary (op : BinaryOp) (left right : Value)
  | unary (op : UnaryOp) (operand : Value)
  | ternary (condition thenBranch elseBranch : Value)
  | spread (inner : Value)
  | call (callee : Value) (args : List Value)
  | member (target : Value) (property : String)
  | index (target key : Value)
  | arrow (params : List ArrowParam) (body : ArrowBody)

/-- One entry of an object. -/
inductive ObjectEntry where
  | field (key : String) (value : Value)
  | spread (value : Value)

/-- The body of an arrow function: a value, or the raw text of a block. -/
inductive ArrowBody where
  | expr (value : Value)
  | block (text : String)

end

instance : Inhabited Value := ⟨.null⟩

namespace Value

def asString? : Value → Option String
  | .string text => some text
  | _ => none

def asNumber? : Value → Option Binary64
  | .number value _ _ => some value
  | _ => none

def asBool? : Value → Option Bool
  | .bool value => some value
  | _ => none

def isSpread : Value → Bool
  | .spread _ => true
  | _ => false

/-- The value of a key of an object; the last entry of the key counts. -/
def field? (key : String) : Value → Option Value
  | .object entries =>
      entries.foldl (fun found entry =>
        match entry with
        | .field k value => if k = key then some value else found
        | .spread _ => found) none
  | _ => none

mutual

/-- The names that a value refers to, in the order in which they are written. -/
def references : Value → List String
  | .reference name => [name]
  | .array items => referencesOfItems items
  | .object entries => referencesOfEntries entries
  | .binary _ left right => left.references ++ right.references
  | .unary _ operand => operand.references
  | .spread inner => inner.references
  | .ternary condition thenBranch elseBranch =>
      condition.references ++ thenBranch.references ++ elseBranch.references
  | .call callee args => callee.references ++ referencesOfItems args
  | .member target _ => target.references
  | .index target key => target.references ++ key.references
  | .arrow _ body => referencesOfBody body
  | .string _ | .number _ _ _ | .bool _ | .null | .interpolation _ _ => []

def referencesOfItems : List Value → List String
  | [] => []
  | item :: rest => item.references ++ referencesOfItems rest

def referencesOfEntries : List ObjectEntry → List String
  | [] => []
  | .field _ value :: rest => value.references ++ referencesOfEntries rest
  | .spread value :: rest => value.references ++ referencesOfEntries rest

def referencesOfBody : ArrowBody → List String
  | .expr value => value.references
  | .block _ => []

end

mutual

def same : Value → Value → Bool
  | .string a, .string b => a = b
  | .number a unit raw, .number b unit' raw' => a = b && unit = unit' && raw = raw'
  | .bool a, .bool b => a = b
  | .null, .null => true
  | .array a, .array b => sameItems a b
  | .object a, .object b => sameEntries a b
  | .reference a, .reference b => a = b
  | .interpolation id a, .interpolation id' b => id = id' && a = b
  | .binary op a b, .binary op' a' b' => op = op' && same a a' && same b b'
  | .unary op a, .unary op' b => op = op' && same a b
  | .ternary a b c, .ternary a' b' c' => same a a' && same b b' && same c c'
  | .spread a, .spread b => same a b
  | .call a args, .call b args' => same a b && sameItems args args'
  | .member a property, .member b property' => same a b && property = property'
  | .index a b, .index a' b' => same a a' && same b b'
  | .arrow params body, .arrow params' body' => params = params' && sameBody body body'
  | _, _ => false

def sameItems : List Value → List Value → Bool
  | [], [] => true
  | a :: as, b :: bs => same a b && sameItems as bs
  | _, _ => false

def sameEntries : List ObjectEntry → List ObjectEntry → Bool
  | [], [] => true
  | .field k a :: as, .field l b :: bs => k = l && same a b && sameEntries as bs
  | .spread a :: as, .spread b :: bs => same a b && sameEntries as bs
  | _, _ => false

def sameBody : ArrowBody → ArrowBody → Bool
  | .expr a, .expr b => same a b
  | .block a, .block b => a = b
  | _, _ => false

end

end Value

end SceneLang
