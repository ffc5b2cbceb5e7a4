import SceneLang.Json.Basic
import SceneLang.Number.Decimal
import SceneLang.Text.Slice

/-!
# Reading JSON

A strict reader: one value and nothing after it.  A reader step runs on the characters
still to be read and fails with a fault and the byte offset it is reported at.  The steps
are public, so that a form with a fixed shape can be read member by member.
-/

namespace SceneLang.Json

/-- What is wrong with a text. -/
inductive Fault where
  | endInList
  | endInObject
  | endInString
  | endInValue
  | expectedColon
  | expectedListCommaOrEnd
  | expectedObjectCommaOrEnd
  | expectedWord
  | expectedValue
  | invalidEscape
  | invalidNumber
  | numberOutOfRange
  | controlCharacter
  | keyNotString
  | loneSurrogate
  | trailingComma
  | trailingCharacters
  | endOfEscape
  | nestingLimit
  /-- The text is fine, but not for the form that is read. -/
  | unfit (message : String)
deriving DecidableEq, Repr

def Fault.message : Fault → String
  | .endInList => "EOF while parsing a list"
  | .endInObject => "EOF while parsing an object"
  | .endInString => "EOF while parsing a string"
  | .endInValue => "EOF while parsing a value"
  | .expectedColon => "expected `:`"
  | .expectedListCommaOrEnd => "expected `,` or `]`"
  | .expectedObjectCommaOrEnd => "expected `,` or `\x7d`"
  | .expectedWord => "expected ident"
  | .expectedValue => "expected value"
  | .invalidEscape => "invalid escape"
  | .invalidNumber => "invalid number"
  | .numberOutOfRange => "number out of range"
  | .controlCharacter =>
      "control character (\\u0000-\\u001F) found while parsing a string"
  | .keyNotString => "key must be a string"
  | .loneSurrogate => "lone leading surrogate in hex escape"
  | .trailingComma => "trailing comma"
  | .trailingCharacters => "trailing characters"
  | .endOfEscape => "unexpected end of hex escape"
  | .nestingLimit => "recursion limit exceeded"
  | .unfit message => message

/-- A fault and the offset, in bytes, that it is reported at. -/
structure Failure where
  fault : Fault
  offset : Nat
deriving Repr

/-- The line of a byte offset and the number of bytes before it on that line, for a text
that follows `column` bytes of line `line`. -/
def lineAndColumn (line column : Nat) : List Char → Nat → Nat × Nat
  | [], _ => (line, column)
  | c :: rest, offset =>
      if offset = 0 then (line, column)
      else if offset < c.utf8Size then (line, column + offset)
      else if c = '\n' then lineAndColumn (line + 1) 0 rest (offset - c.utf8Size)
      else lineAndColumn line (column + c.utf8Size) rest (offset - c.utf8Size)

def Failure.text (failure : Failure) (source : List Char) : String :=
  let (line, column) := lineAndColumn 1 0 source failure.offset
  s!"{failure.fault.message} at line {line} column {column}"

/-- The characters still to be read and the number of bytes read. -/
structure Input where
  rest : List Char
  offset : Nat

abbrev Reader (α : Type) := StateT Input (Except Failure) α

namespace Reader

def fail {α : Type} (fault : Fault) : Reader α := fun input =>
  .error ⟨fault, input.offset⟩

/-- Fail one byte further on, at the character that comes next. -/
def failAhead {α : Type} (fault : Fault) : Reader α := fun input =>
  .error ⟨fault, if input.rest.isEmpty then input.offset else input.offset + 1⟩

def peek : Reader (Option Char) := fun input => .ok (input.rest.head?, input)

def skip : Reader Unit := fun input =>
  match input.rest with
  | [] => .ok ((), input)
  | c :: rest => .ok ((), ⟨rest, input.offset + c.utf8Size⟩)

def next (atEnd : Fault) : Reader Char := do
  match ← peek with
  | none => fail atEnd
  | some c => skip; pure c

def isSpace (c : Char) : Bool :=
  c = ' ' || c = '\n' || c = '\t' || c = '\r'

def oneOf (accepts : Char → Bool) (atEnd other : Fault) : Reader Char := do
  match ← peek with
  | none => fail atEnd
  | some c => if accepts c then do skip; pure c else failAhead other

/-- Step over blanks and look at the character behind them. -/
def peekToken : Reader (Option Char) := fun input =>
  let blanks := input.rest.takeWhile isSpace
  let rest := input.rest.dropWhile isSpace
  .ok (rest.head?, ⟨rest, input.offset + blanks.length⟩)

def digits : Reader (List Char) := fun input =>
  let found := input.rest.takeWhile Char.isDigit
  .ok (found, ⟨input.rest.dropWhile Char.isDigit, input.offset + found.length⟩)

/-- The rest of a word whose first character has been read. -/
def word : List Char → Reader Unit
  | [] => pure ()
  | expected :: more => do
      discard <| oneOf (· = expected) .endInValue .expectedWord
      word more

/-! ## Numbers -/

def wholeLimit : Nat := twoTo 64

def exponentLimit : Nat := twoTo 31

/-- Take digits into a number as long as it stays below a limit; what is left over is
returned. -/
def takeDigits (limit value : Nat) : List Char → Nat × List Char
  | [] => (value, [])
  | c :: rest =>
      let grown := value * 10 + (c.toNat - '0'.toNat)
      if grown < limit then takeDigits limit grown rest else (value, c :: rest)

/-- The significand times a power of ten, as two roundings give it: one for the
significand and one for the product or quotient.  Nothing if that is infinite. -/
def scaleByTen (significand : Nat) (exponent : Int) : Option Binary64 :=
  let start := Binary64.ofNat significand
  let power (k : Nat) : Binary64 := .nearest false (tenTo k) 1
  if significand = 0 then some .zero
  else if 308 < exponent then none
  else if 0 ≤ exponent then
    let product := start.mul (power exponent.toNat)
    if product.isFinite then some product else none
  else if -308 ≤ exponent then some (start.div (power (-exponent).toNat))
  else if -616 ≤ exponent then
    some ((start.div (power 308)).div (power (-exponent - 308).toNat))
  else some .zero

/-- The size of an exponent whose sign has been read.  If `bounded`, a size that reaches the
limit is out of range, which is told behind the digit that makes it so. -/
def exponentSize (bounded : Bool) : Reader Nat := do
  let first ← oneOf Char.isDigit .endInValue .invalidNumber
  fun input =>
    let more := input.rest.takeWhile Char.isDigit
    let (size, left) := takeDigits exponentLimit 0 (first :: more)
    if bounded && !left.isEmpty then
      .error ⟨.numberOutOfRange, input.offset + (more.length + 1 - left.length)⟩
    else .ok (size, ⟨input.rest.dropWhile Char.isDigit, input.offset + more.length⟩)

def number (negative : Bool) : Reader Json := do
  let first ← oneOf Char.isDigit .endInValue .invalidNumber
  let more ← if first = '0' then pure [] else digits
  if first = '0' then
    if let some c ← peek then
      if c.isDigit then failAhead .invalidNumber
  let (whole, dropped) := takeDigits wholeLimit 0 (first :: more)
  let mut significand := whole
  let mut exponent : Int := dropped.length
  let mut isFloat := !dropped.isEmpty
  if (← peek) = some '.' then
    skip
    let fraction ← digits
    if fraction.isEmpty then
      if (← peek).isSome then failAhead .invalidNumber else failAhead .endInValue
    let (grown, left) := takeDigits wholeLimit significand fraction
    exponent := exponent - (fraction.length - left.length : Nat)
    significand := grown
    isFloat := true
  let mark ← peek
  if mark = some 'e' || mark = some 'E' then
    skip
    let sign ← peek
    if sign = some '+' || sign = some '-' then skip
    let size ← exponentSize (sign ≠ some '-' && significand ≠ 0)
    exponent := if sign = some '-' then exponent - size else exponent + size
    isFloat := true
  if isFloat then
    match scaleByTen significand exponent with
    | none => fail .numberOutOfRange
    | some x => pure (.float (if negative then x.negate else x))
  else if !negative then pure (.int significand)
  else if significand = 0 ∨ twoTo 63 < significand then
    pure (.float (.nearest true significand 1))
  else pure (.int (-(significand : Int)))

/-! ## Texts -/

def hexValue? (c : Char) : Option Nat :=
  if c.isDigit then some (c.toNat - '0'.toNat)
  else if 'a' ≤ c ∧ c ≤ 'f' then some (c.toNat - 'a'.toNat + 10)
  else if 'A' ≤ c ∧ c ≤ 'F' then some (c.toNat - 'A'.toNat + 10)
  else none

def hexEscape : Reader Nat := fun input =>
  let left := Text.byteLength input.rest
  if left < 4 then .error ⟨.endInString, input.offset + left⟩
  else
    match (input.rest.take 4).mapM hexValue? with
    | some digits =>
        .ok (digits.foldl (fun unit digit => unit * 16 + digit) 0,
          ⟨input.rest.drop 4, input.offset + 4⟩)
    | none => .error ⟨.invalidEscape, input.offset + 4⟩

/-- What follows `\u`: one code unit, or two that form a pair. -/
def unicodeEscape : Reader Char := do
  let unit ← hexEscape
  if 0xDC00 ≤ unit ∧ unit ≤ 0xDFFF then fail .loneSurrogate
  else if 0xD800 ≤ unit ∧ unit ≤ 0xDBFF then
    discard <| oneOf (· = '\\') .endInString .endOfEscape
    discard <| oneOf (· = 'u') .endInString .endOfEscape
    let low ← hexEscape
    unless 0xDC00 ≤ low ∧ low ≤ 0xDFFF do fail .loneSurrogate
    pure (Char.ofNat ((unit - 0xD800) * 0x400 + (low - 0xDC00) + 0x10000))
  else pure (Char.ofNat unit)

def isEscape (c : Char) : Bool :=
  ['"', '\\', '/', 'b', 'f', 'n', 'r', 't', 'u'].contains c

def escape : Reader Char := do
  let c ← oneOf isEscape .endInString .invalidEscape
  if c = 'b' then pure (Char.ofNat 8)
  else if c = 'f' then pure (Char.ofNat 12)
  else if c = 'n' then pure '\n'
  else if c = 'r' then pure '\r'
  else if c = 't' then pure '\t'
  else if c = 'u' then unicodeEscape
  else pure c

/-- The rest of a quoted text; `fuel` bounds the characters read. -/
def quotedRest : Nat → List Char → Reader String
  | 0, _ => fail .endInString
  | fuel + 1, done => do
      let c ← next .endInString
      if c = '"' then pure (String.ofList done.reverse)
      else if c = '\\' then quotedRest fuel ((← escape) :: done)
      else if c.toNat < 0x20 then fail .controlCharacter
      else quotedRest fuel (c :: done)

def quoted : Reader String := fun input =>
  quotedRest (input.rest.length + 1) [] input

/-! ## Arrays and objects -/

/-- Is there another item?  `first` tells that none has been read. -/
def moreItems (first : Bool) : Reader Bool := do
  match ← peekToken with
  | none => failAhead .endInList
  | some c =>
      if c = ']' then pure false
      else if c = ',' ∧ !first then
        skip
        match ← peekToken with
        | none => failAhead .endInValue
        | some d => if d = ']' then failAhead .trailingComma else pure true
      else if first then pure true
      else failAhead .expectedListCommaOrEnd

/-- The name of the next member, if there is one. -/
def nextKey? (first : Bool) : Reader (Option String) := do
  let key (c : Option Char) : Reader (Option String) :=
    match c with
    | none => failAhead .endInValue
    | some c =>
        if c = '"' then do skip; return some (← quoted)
        else if c = '\x7d' then failAhead .trailingComma
        else failAhead .keyNotString
  match ← peekToken with
  | none => failAhead .endInObject
  | some c =>
      if c = '\x7d' then pure none
      else if c = ',' ∧ !first then do skip; key (← peekToken)
      else if first then key (some c)
      else failAhead .expectedObjectCommaOrEnd

def colon : Reader Unit := do
  match ← peekToken with
  | none => failAhead .endInObject
  | some c => if c = ':' then skip else failAhead .expectedColon

mutual

/-- One value; `fuel` bounds the values and members read. -/
def value : Nat → Reader Json
  | 0 => fail .nestingLimit
  | fuel + 1 => do
      match ← peekToken with
      | none => failAhead .endInValue
      | some c =>
          if c = '"' then do skip; return .string (← quoted)
          else if c = '-' then do skip; number true
          else if c.isDigit then number false
          else if c = 'n' then do skip; word ['u', 'l', 'l']; pure .null
          else if c = 't' then do skip; word ['r', 'u', 'e']; pure (.bool true)
          else if c = 'f' then do skip; word ['a', 'l', 's', 'e']; pure (.bool false)
          else if c = '[' then do skip; return .array (← items fuel true)
          else if c = '\x7b' then do skip; return .object (← members fuel true)
          else failAhead .expectedValue

def items : Nat → Bool → Reader (List Json)
  | 0, _ => fail .nestingLimit
  | fuel + 1, first => do
      if ← moreItems first then
        let item ← value fuel
        return item :: (← items fuel false)
      else
        skip
        pure []

def members : Nat → Bool → Reader (List (String × Json))
  | 0, _ => fail .nestingLimit
  | fuel + 1, first => do
      match ← nextKey? first with
      | some name =>
          colon
          let item ← value fuel
          return (name, item) :: (← members fuel false)
      | none =>
          skip
          pure []

end

/-- Nothing but blanks may follow. -/
def finish : Reader Unit := do
  if (← peekToken).isSome then failAhead .trailingCharacters

def run {α : Type} (reader : Reader α) (text : List Char) : Except Failure α :=
  (do let a ← reader; finish; pure a).run' ⟨text, 0⟩

end Reader

def ofText (text : List Char) : Except Failure Json :=
  Reader.run (Reader.value (2 * text.length + 2)) text

end SceneLang.Json
